import TextTables.Proofs.Store.Failing

/-!
# The order in which a directory is listed

A directory lists its entries in some order, of which nothing is promised. Two disks that differ in
these orders alone hold the same things in the same places, and every order of the entries of a
directory is the one of such a disk.
-/

namespace TextTables.Disk

/-- The same stands on both disks, and each directory lists its entries in an order of its own. -/
structure Relists (disk other : Disk) : Prop where
  home : other.home = disk.home
  same : disk.Same other
  listed : ∀ place, (other.names place).Perm (disk.names place)

/-- The disk with the entries of one directory in the order of the names. -/
def relisted (disk : Disk) (place : Location) (order : List String) : Disk :=
  ⟨disk.home,
    (order.map fun name => (place ++ [name], (disk.node? (place ++ [name])).getD .directory)) ++
      disk.entries.filter fun entry => order.all fun name => entry.1 != place ++ [name]⟩

variable {disk other : Disk} {place : Location} {order : List String}

theorem Same.names_perm (same : disk.Same other) (tidy : disk.Tidy []) (otherTidy : other.Tidy [])
    (place : Location) : (other.names place).Perm (disk.names place) := by
  rw [List.perm_ext_iff_of_nodup (otherTidy place List.nil_prefix) (tidy place List.nil_prefix)]
  intro name
  rw [mem_names_iff, mem_names_iff, same]

namespace Relists

theorem symm (relists : disk.Relists other) : other.Relists disk :=
  ⟨relists.home.symm, fun place => (relists.same place).symm,
    fun place => (relists.listed place).symm⟩

theorem tidy (relists : disk.Relists other) (tidy : disk.Tidy []) : other.Tidy [] :=
  fun place inside => (relists.listed place).nodup_iff.mpr (tidy place inside)

theorem locate (relists : disk.Relists other) (path : Path) :
    other.locate path = disk.locate path :=
  (locate_congr relists.home (fun place => (relists.same place).symm) path).symm

end Relists

theorem lookup_map_children (place : Location) (order : List String) (node : String → Node)
    (spot : Location) :
    (order.map fun name => (place ++ [name], node name)).lookup spot =
      (order.find? fun name => spot == place ++ [name]).map node := by
  induction order with
  | nil => rfl
  | cons name rest inductionHypothesis =>
      rw [List.map_cons, List.lookup_cons, List.find?_cons, inductionHypothesis]
      cases spot == place ++ [name] <;> rfl

theorem names_relisted (permuted : order.Perm (disk.names place)) (other : Location) :
    (disk.relisted place order).names other =
      if other = place then order else disk.names other := by
  have kept := filterMap_childName?_filter disk.entries
    (fun location => order.all fun name => location != place ++ [name]) other
  unfold names relisted at *
  rw [List.filterMap_append, List.filterMap_map, kept]
  split
  · rename_i here
    subst here
    have front : (childName? other ∘ fun name =>
        (other ++ [name], (disk.node? (other ++ [name])).getD .directory)) = some := by
      funext name
      exact childName?_eq_some_iff.mpr rfl
    rw [front, List.filterMap_some, List.append_right_eq_self, List.filter_eq_nil_iff]
    intro name member
    simpa using permuted.mem_iff.mpr member
  · rename_i elsewhere
    have apart : ∀ first second, other ++ [first] ≠ place ++ [second] :=
      fun first second same => elsewhere (List.append_inj' same rfl).1
    rw [List.filterMap_eq_nil_iff.mpr, List.nil_append, List.filter_eq_self]
    · intro name _
      simpa using fun second _ => apart name second
    · intro name _
      rw [Option.eq_none_iff_forall_ne_some]
      intro found named
      exact apart found name (childName?_eq_some_iff.mp named).symm

theorem node?_relisted (permuted : order.Perm (disk.names place)) (spot : Location) :
    (disk.relisted place order).node? spot = disk.node? spot := by
  by_cases top : spot = []
  · simp [node?, top]
  have stands : ∀ name, name ∈ order ↔ disk.node? (place ++ [name]) ≠ none :=
    fun name => permuted.mem_iff.trans mem_names_iff
  have stored : disk.node? spot = disk.entries.lookup spot := by simp [node?, top]
  have kept := lookup_filter disk.entries
    (fun location => order.all fun name => location != place ++ [name]) spot
  simp only [node?, top, if_false, relisted, List.lookup_append]
  rw [lookup_map_children, kept]
  cases found : order.find? fun name => spot == place ++ [name] with
  | some name =>
      obtain rfl : spot = place ++ [name] := by simpa using List.find?_some found
      obtain ⟨node, present⟩ :=
        Option.ne_none_iff_exists'.mp ((stands name).mp (List.mem_of_find?_eq_some found))
      simp [← stored, present]
  | none =>
      have apart := List.find?_eq_none.mp found
      rw [if_pos]
      · rfl
      · simpa using apart

/-- Every order of the entries of a directory is the order of a disk with the same on it. -/
theorem relists_relisted (permuted : order.Perm (disk.names place)) :
    disk.Relists (disk.relisted place order) ∧ (disk.relisted place order).names place = order := by
  refine ⟨⟨rfl, node?_relisted permuted, fun other => ?_⟩, ?_⟩
  · rw [names_relisted permuted]
    split
    · rename_i here
      exact here ▸ permuted
    · exact .refl _
  · rw [names_relisted permuted, if_pos rfl]

/-- To put what already stands there changes nothing, not even the order of the entries. -/
theorem Tidy.put_eq_self {name : String} {node : Node} (tidy : disk.Tidy place)
    (stored : disk.node? (place ++ [name]) = some node) :
    disk.put (place ++ [name]) node = disk := by
  have found : disk.entries.lookup (place ++ [name]) = some node := by simpa [node?] using stored
  rw [Disk.put, found, Option.isSome_some, if_pos rfl]
  have once := List.pairwise_filterMap.mp (tidy place (List.prefix_refl place))
  obtain ⟨before, after, split, absent⟩ := List.lookup_eq_some_iff.mp found
  rw [split] at once
  obtain ⟨alone, -⟩ := List.pairwise_cons.mp (List.pairwise_append.mp once).2.1
  have kept : ∀ entry ∈ disk.entries,
      (if entry.1 = place ++ [name] then (place ++ [name], node) else entry) = entry := by
    intro entry member
    split
    · rename_i here
      rw [split] at member
      rcases List.mem_append.mp member with early | late
      · have apart := absent entry early
        simp [here] at apart
      · rcases List.mem_cons.mp late with rfl | later
        · rfl
        · exact absurd rfl (alone entry later name (childName?_eq_some_iff.mpr rfl) name
            (childName?_eq_some_iff.mpr here))
    · rfl
  rw [List.map_congr_left kept, List.map_id']

end TextTables.Disk
