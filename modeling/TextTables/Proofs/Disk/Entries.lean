import Mathlib
import TextTables.Disk

/-!
# Directory entries

The list of a directory holds the names of what stands in it, and each of them once.
-/

namespace TextTables.Disk

theorem childName?_eq_some_iff {place : Location} {entry : Location × Node} {name : String} :
    childName? place entry = some name ↔ entry.1 = place ++ [name] := by
  obtain ⟨key, node⟩ := entry
  unfold childName?
  rcases List.eq_nil_or_concat key with rfl | ⟨parent, last, rfl⟩
  · simp
  · by_cases inside : parent = place <;> simp [inside, and_comm]

theorem lookup_ne_none_iff (entries : List (Location × Node)) (place : Location) :
    entries.lookup place ≠ none ↔ ∃ entry ∈ entries, entry.1 = place := by
  induction entries with
  | nil => simp
  | cons entry rest inductionHypothesis =>
      obtain ⟨key, stored⟩ := entry
      by_cases asked : place = key
      · simp [asked]
      · have different : (place == key) = false := by simpa using asked
        simp [List.lookup_cons, different, inductionHypothesis, Ne.symm asked]

theorem mem_names_iff {disk : Disk} {place : Location} {name : String} :
    name ∈ disk.names place ↔ disk.node? (place ++ [name]) ≠ none := by
  have below : place ++ [name] ≠ [] := by simp
  simp only [names, List.mem_filterMap, childName?_eq_some_iff, node?, below, if_false,
    lookup_ne_none_iff]

theorem names_put_old {disk : Disk} {place : Location} (stands : disk.node? place ≠ none)
    (below : place ≠ []) (node : Node) (other : Location) :
    (disk.put place node).names other = disk.names other := by
  have found : (disk.entries.lookup place).isSome := by
    simpa [node?, below, Option.isSome_iff_ne_none] using stands
  simp only [names, put, found, if_true, List.filterMap_map]
  congr 1
  funext entry
  by_cases here : entry.1 = place <;> simp [childName?, here]

theorem names_put_new {disk : Disk} {parent : Location} {name : String}
    (free : disk.node? (parent ++ [name]) = none) (node : Node) (other : Location) :
    (disk.put (parent ++ [name]) node).names other =
      if other = parent then disk.names parent ++ [name] else disk.names other := by
  have missing : (disk.entries.lookup (parent ++ [name])).isSome = false := by
    simpa [node?] using free
  simp only [names, put, missing, Bool.false_eq_true, if_false, List.filterMap_append]
  by_cases inside : other = parent
  · have named : childName? parent (parent ++ [name], node) = some name := by
      simp [childName?_eq_some_iff]
    simp [inside, named]
  · have foreign : childName? other (parent ++ [name], node) = none := by
      simp [childName?, Ne.symm inside]
    simp [inside, foreign]

theorem filterMap_childName?_filter (entries : List (Location × Node)) (test : Location → Bool)
    (place : Location) :
    (entries.filter fun entry => test entry.1).filterMap (childName? place) =
      (entries.filterMap (childName? place)).filter fun name => test (place ++ [name]) := by
  induction entries with
  | nil => rfl
  | cons entry rest inductionHypothesis =>
      cases named : childName? place entry with
      | none => by_cases kept : test entry.1 <;> simp [kept, named, inductionHypothesis]
      | some name =>
          have key : entry.1 = place ++ [name] := childName?_eq_some_iff.mp named
          by_cases kept : test entry.1
          · simp [kept, named, inductionHypothesis, key ▸ kept]
          · simp [kept, named, inductionHypothesis, key ▸ kept]

theorem names_erase (disk : Disk) (place other : Location) :
    (disk.erase place).names other =
      (disk.names other).filter fun name => !place.isPrefixOf (other ++ [name]) :=
  filterMap_childName?_filter disk.entries (fun location => !place.isPrefixOf location) other

theorem names_clear (disk : Disk) (place other : Location) :
    (disk.clear place).names other =
      (disk.names other).filter fun name =>
        !(place.isPrefixOf (other ++ [name]) && other ++ [name] != place) :=
  filterMap_childName?_filter disk.entries
    (fun location => !(place.isPrefixOf location && location != place)) other

/-- What has been cleared is empty. -/
theorem names_clear_self (disk : Disk) (place : Location) : (disk.clear place).names place = [] := by
  refine List.eq_nil_iff_forall_not_mem.mpr fun name member => ?_
  apply mem_names_iff.mp member
  rw [node?_clear, if_pos (by simp)]

theorem erase_clear (disk : Disk) (place : Location) :
    (disk.clear place).erase place = disk.erase place := by
  unfold clear erase
  rw [List.filter_filter]
  congr 2
  funext entry
  cases place.isPrefixOf entry.1 <;> simp

/-- Of the entries of a directory each is only below itself. -/
theorem isPrefixOf_entry (place : Location) (entry name : String) :
    (place ++ [entry]).isPrefixOf (place ++ [name]) = (name == entry) := by
  rw [Bool.eq_iff_iff, List.isPrefixOf_iff_prefix, List.prefix_append_right_inj]
  simpa using eq_comm

theorem node?_erase_entry (disk : Disk) (place : Location) (entry name : String) :
    (disk.erase (place ++ [entry])).node? (place ++ [name]) =
      if name = entry then none else disk.node? (place ++ [name]) := by
  rw [node?_erase _ (by simp), isPrefixOf_entry]
  simp only [beq_iff_eq]

/-- An entry is taken out of its directory, and the others stay. -/
theorem names_erase_entry (disk : Disk) (place : Location) (entry : String) :
    (disk.erase (place ++ [entry])).names place =
      (disk.names place).filter fun name => name != entry := by
  rw [names_erase]
  refine List.filter_congr fun name _ => ?_
  rw [isPrefixOf_entry, bne]

/-- At and below a place, no entry is listed twice. -/
def Tidy (disk : Disk) (top : Location) : Prop :=
  ∀ place, top <+: place → (disk.names place).Nodup

theorem tidy_of_entries {disk : Disk} (distinct : (disk.entries.map Prod.fst).Nodup) :
    disk.Tidy [] := by
  intro place _
  refine List.Pairwise.filterMap _ ?_ (List.pairwise_map.mp distinct)
  intro first second different name here other there same
  subst same
  rw [childName?_eq_some_iff] at here there
  exact different (here.trans there.symm)

theorem Tidy.put {disk : Disk} {top : Location} (tidy : disk.Tidy top) (parent : Location)
    (name : String) (node : Node) : (disk.put (parent ++ [name]) node).Tidy top := by
  intro place inside
  have before := tidy place inside
  cases stands : disk.node? (parent ++ [name]) with
  | none =>
      rw [names_put_new stands]
      split
      · rename_i here
        subst here
        have fresh : name ∉ disk.names place := by simp [mem_names_iff, stands]
        refine List.nodup_append.mpr ⟨before, by simp, ?_⟩
        intro listed member added last same
        rw [same, List.mem_singleton.mp last] at member
        exact fresh member
      · exact before
  | some present =>
      rw [names_put_old (by simp [stands]) (by simp)]
      exact before

theorem Tidy.erase {disk : Disk} {top : Location} (tidy : disk.Tidy top) (place : Location) :
    (disk.erase place).Tidy top := by
  intro other inside
  rw [names_erase]
  exact (tidy other inside).filter _

end TextTables.Disk
