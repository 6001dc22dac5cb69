import TextTables.Proofs.Store.Premises

/-!
# Saving a table once more

To put what a place holds there once more changes nothing on the disk, not even the order of its
entries. The two files of a table stand at different places, so that a table that was saved can be
saved again, and the disk stays what it is. After a change it can be saved as well, since writing a
file takes no directory away.
-/

namespace TextTables

open Work

namespace Disk

variable {disk : Disk} {place other : Location} {node another : Node}

/-- There are entries for the place, and every one of them holds the node. -/
structure Settled (disk : Disk) (place : Location) (node : Node) : Prop where
  present : (disk.entries.lookup place).isSome
  only : ∀ entry ∈ disk.entries, entry.1 = place → entry.2 = node

theorem settled_put (disk : Disk) (below : place ≠ []) (node : Node) :
    (disk.put place node).Settled place node := by
  have stands := node?_put disk below node place
  rw [if_pos rfl, node?, if_neg below] at stands
  refine ⟨by rw [stands]; rfl, fun entry member here => ?_⟩
  unfold put at member
  split at member
  · obtain ⟨old, -, rfl⟩ := List.mem_map.mp member
    split at here <;> rename_i same
    · rw [if_pos same]
    · exact absurd here same
  · rename_i absent
    rcases List.mem_append.mp member with before | last
    · have listed := (lookup_ne_none_iff disk.entries place).mpr ⟨entry, before, here⟩
      exact absurd (Option.isSome_iff_ne_none.mpr listed) absent
    · rw [List.mem_singleton.mp last]

/-- What is put elsewhere leaves the entries for the place. -/
theorem Settled.put (settled : disk.Settled place node) (apart : place ≠ other)
    (below : place ≠ []) (elsewhere : other ≠ []) (another : Node) :
    (disk.put other another).Settled place node := by
  have stands := node?_put disk elsewhere another place
  rw [if_neg apart, node?, node?, if_neg below, if_neg below] at stands
  refine ⟨stands ▸ settled.present, fun entry member here => ?_⟩
  unfold Disk.put at member
  split at member
  · obtain ⟨old, inside, rfl⟩ := List.mem_map.mp member
    split at here <;> rename_i same
    · exact absurd here.symm apart
    · rw [if_neg same]
      exact settled.only old inside here
  · rcases List.mem_append.mp member with before | last
    · exact settled.only entry before here
    · rw [List.mem_singleton.mp last] at here
      exact absurd here.symm apart

theorem Settled.put_eq_self (settled : disk.Settled place node) : disk.put place node = disk := by
  rw [Disk.put, if_pos settled.present]
  have kept : ∀ entry ∈ disk.entries,
      (if entry.1 = place then (place, node) else entry) = entry := by
    rintro ⟨location, stored⟩ member
    split <;> rename_i here
    · exact Prod.ext here.symm (settled.only _ member here).symm
    · rfl
  rw [List.map_congr_left kept, List.map_id']

theorem Settled.node?_eq (settled : disk.Settled place node) (below : place ≠ []) :
    disk.node? place = some node := by
  rw [← settled.put_eq_self, node?_put _ below, if_pos rfl]

end Disk

/-- A text that its file holds is written once more. -/
theorem DiskM.writeText_again {disk : Disk} {path : Path} {text : String} {place : Location}
    (located : disk.locate path = .ok place) (below : place ≠ [])
    (settled : disk.Settled place (.file text.toUTF8)) :
    writeText path text disk = .ok () disk := by
  have noDirectory : disk.node? place ≠ some .directory := by
    rw [settled.node?_eq below]
    exact nofun
  rw [writeText_apply, located]
  dsimp only
  rw [if_neg noDirectory, settled.put_eq_self]

/-- A path can be written if it leads to a place where no directory stands. -/
def Disk.Writable (disk : Disk) (path : Path) : Prop :=
  ∃ place, disk.locate path = .ok place ∧ disk.node? place ≠ some .directory

namespace DiskM

variable {disk after : Disk} {path other : Path} {text : String}

theorem writable_of_writeText (wrote : writeText path text disk = .ok () after) :
    disk.Writable path := by
  obtain ⟨place, located, noDirectory, -⟩ := writeText_eq_ok wrote
  exact ⟨place, located, noDirectory⟩

theorem exists_writeText (writable : disk.Writable path) (text : String) :
    ∃ after, writeText path text disk = .ok () after := by
  obtain ⟨place, located, noDirectory⟩ := writable
  rw [writeText_apply, located]
  dsimp only
  rw [if_neg noDirectory]
  exact ⟨_, rfl⟩

/-- Writing a file leaves all paths as they can be written. -/
theorem writable_after (writable : disk.Writable path)
    (wrote : writeText other text disk = .ok () after) : after.Writable path := by
  obtain ⟨place, located, noDirectory⟩ := writable
  obtain ⟨spot, -, noOther, rfl⟩ := writeText_eq_ok wrote
  have below := Disk.ne_nil_of_node? noOther
  refine ⟨place, (Disk.KeepsDirectories.put below noOther _).locate located, fun directory => ?_⟩
  exact noDirectory ((Disk.KeepsDirectories.of_putFile below _).kept place directory)

end DiskM

namespace Store

variable {store : Store} {database : String} {table : Table} {disk after : Disk}

/-- A table that was saved is saved again, and no entry of the disk is changed. -/
theorem saveTable_again (named : IsName table.name)
    (saved : store.saveTable database table disk = .ok () after) :
    store.saveTable database table after = .ok () after := by
  obtain ⟨⟨⟩, middle, first, second⟩ := bind_eq_ok_iff.mp saved
  obtain ⟨place, located, noDirectory, rfl⟩ := DiskM.writeText_eq_ok (StoreM.ofDisk_eq_ok first)
  obtain ⟨other, locatedOther, noOther, rfl⟩ := DiskM.writeText_eq_ok (StoreM.ofDisk_eq_ok second)
  have below := Disk.ne_nil_of_node? noDirectory
  have elsewhere := Disk.ne_nil_of_node? noOther
  have keepsFirst := Disk.KeepsDirectories.put below noDirectory (.file table.render.toUTF8)
  have keepsSecond := Disk.KeepsDirectories.put elsewhere noOther (.file table.renderKey.toUTF8)
  -- The two places have the same directory above them, and end with different names.
  have apart : place ≠ other := by
    rintro rfl
    obtain ⟨-, -, ends⟩ := Disk.leads_of_locate_join named.isFileName_table located
    obtain ⟨-, -, endsOther⟩ := Disk.leads_of_locate_join named.isFileName_counter locatedOther
    have same := List.append_inj_right' (ends.symm.trans endsOther) rfl
    exact table_ne_counter named table.name (List.singleton_inj.mp same)
  have tableSettled := (Disk.settled_put disk below (.file table.render.toUTF8)).put apart below
    elsewhere (.file table.renderKey.toUTF8)
  have counterSettled := Disk.settled_put (disk.put place (.file table.render.toUTF8)) elsewhere
    (.file table.renderKey.toUTF8)
  refine (bind_ok (StoreM.ofDisk_ok (DiskM.writeText_again ?_ below tableSettled)) _).trans ?_
  · exact keepsSecond.locate (keepsFirst.locate located)
  · exact StoreM.ofDisk_ok
      (DiskM.writeText_again (keepsSecond.locate locatedOther) elsewhere counterSettled)

/-- Where a table was saved, another one of its name can be saved. -/
theorem exists_saveTable_after {other : Table} (same : other.name = table.name)
    (saved : store.saveTable database table disk = .ok () after) :
    ∃ final, store.saveTable database other after = .ok () final := by
  obtain ⟨⟨⟩, middle, first, second⟩ := bind_eq_ok_iff.mp saved
  have wroteTable := StoreM.ofDisk_eq_ok first
  have wroteCounter := StoreM.ofDisk_eq_ok second
  have tableWritable := DiskM.writable_after
    (DiskM.writable_after (DiskM.writable_of_writeText wroteTable) wroteTable) wroteCounter
  have counterWritable :=
    DiskM.writable_after (DiskM.writable_of_writeText wroteCounter) wroteCounter
  rw [← same] at tableWritable counterWritable
  obtain ⟨between, rewrote⟩ := DiskM.exists_writeText tableWritable other.render
  obtain ⟨final, recounted⟩ :=
    DiskM.exists_writeText (DiskM.writable_after counterWritable rewrote) other.renderKey
  exact ⟨final, (bind_ok (StoreM.ofDisk_ok rewrote) _).trans (StoreM.ofDisk_ok recounted)⟩

end Store

end TextTables
