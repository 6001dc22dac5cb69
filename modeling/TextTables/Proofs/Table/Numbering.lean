import TextTables.Proofs.Table.Sound

/-!
# Rows that are inserted one after the other

Each row takes the key behind the last one that was given out. So the keys of a table stay unique
exactly as long as none of the keys that are given out is that of a row which is there already.
-/

namespace TextTables.Table

/-- No two rows carry the same primary key. -/
def HasUniqueKeys (table : Table) : Prop :=
  (table.rows.map List.head?).Nodup

instance (table : Table) : Decidable table.HasUniqueKeys :=
  inferInstanceAs (Decidable (List.Nodup _))

/-- The first cells of so many rows that are inserted behind the key that was given out last. -/
def nextKeys (last count : Nat) : List (Option String) :=
  (List.range' (last + 1) count).map fun key => some (toString key)

/-- The table with so many rows inserted into it. -/
structure Continues (before after : Table) (count : Nat) : Prop where
  name : after.name = before.name
  lastKey : after.lastKey = before.lastKey + count
  rows : ∃ inserted, after.rows = before.rows ++ inserted ∧
    inserted.map List.head? = nextKeys before.lastKey count

variable {table before middle after : Table} {count more last : Nat}

theorem mem_nextKeys {cell : Option String} :
    cell ∈ nextKeys last count ↔ ∃ key, last < key ∧ key ≤ last + count ∧
      cell = some (toString key) := by
  simp only [nextKeys, List.mem_map, List.mem_range'_1]
  constructor
  · rintro ⟨key, ⟨above, below⟩, rfl⟩
    exact ⟨key, by omega, by omega, rfl⟩
  · rintro ⟨key, above, below, rfl⟩
    exact ⟨key, ⟨by omega, by omega⟩, rfl⟩

@[simp]
theorem length_nextKeys (last count : Nat) : (nextKeys last count).length = count := by
  simp [nextKeys]

theorem nodup_nextKeys (last count : Nat) : (nextKeys last count).Nodup :=
  (List.nodup_range' 1).map ((Option.some_injective _).comp Numeral.toString_injective)

namespace Continues

theorem refl (table : Table) : Continues table table 0 :=
  ⟨rfl, rfl, [], (List.append_nil _).symm, rfl⟩

theorem trans (first : Continues before middle count) (second : Continues middle after more) :
    Continues before after (count + more) := by
  obtain ⟨inserted, rows, keys⟩ := first.rows
  obtain ⟨later, further, others⟩ := second.rows
  refine ⟨second.name.trans first.name, ?_, inserted ++ later, ?_, ?_⟩
  · rw [second.lastKey, first.lastKey, Nat.add_assoc]
  · rw [further, rows, List.append_assoc]
  · rw [List.map_append, keys, others, first.lastKey, nextKeys, nextKeys, ← List.map_append,
      Nat.add_right_comm, List.range'_append_1, nextKeys]

theorem insert {cells : Row} (inserted : table.insert cells = .ok after) :
    Continues table after 1 := by
  obtain ⟨-, rfl⟩ := insert_eq_ok inserted
  exact ⟨rfl, rfl, _, rfl, rfl⟩

/-- Keys that were unique stay so exactly if none of the new ones was there before. -/
theorem hasUniqueKeys_iff (continues : Continues before after count)
    (unique : before.HasUniqueKeys) :
    after.HasUniqueKeys ↔ ∀ key, before.lastKey < key → key ≤ before.lastKey + count →
      some (toString key) ∉ before.rows.map List.head? := by
  obtain ⟨inserted, rows, keys⟩ := continues.rows
  unfold HasUniqueKeys at unique ⊢
  rw [rows, List.map_append, keys, List.nodup_append']
  constructor
  · rintro ⟨-, -, disjoint⟩ key above below present
    exact disjoint present (mem_nextKeys.mpr ⟨key, above, below, rfl⟩)
  · intro absent
    refine ⟨unique, nodup_nextKeys _ _, fun cell present given => ?_⟩
    obtain ⟨key, above, below, rfl⟩ := mem_nextKeys.mp given
    exact absent key above below present

end Continues

theorem Numbered.hasUniqueKeys (numbered : table.Numbered) : table.HasUniqueKeys := by
  obtain ⟨keys, spelled, rising, -⟩ := numbered
  rw [HasUniqueKeys, spelled]
  exact rising.nodup.map ((Option.some_injective _).comp Numeral.toString_injective)

/-- Keys above the last one that was given out are those of no row. -/
theorem Numbered.absent (numbered : table.Numbered) {key : Nat} (above : table.lastKey < key) :
    some (toString key) ∉ table.rows.map List.head? := by
  obtain ⟨keys, spelled, -, bounded⟩ := numbered
  rw [spelled]
  intro present
  obtain ⟨other, member, same⟩ := List.mem_map.mp present
  have equal := Numeral.toString_injective (Option.some.inj same)
  have below := bounded other member
  omega

end TextTables.Table
