import TextTables.Join
import TextTables.Proofs.Table.Lookup

/-!
# The rows of a join

A join is the reference on pairs of positions: the pairs of rows that agree, by the row of the first
table and then by that of the second one, each once and numbered from one. Header and rows keep the
same places of both tables, so that every cell stands under the name of its column. With the tables
the other way round the same pairs come, and the same cells under the same names.
-/

namespace TextTables

namespace Table

/-- The places that a join keeps: all but the first and the one of the join column. -/
def keptPlaces (width key : Nat) : List Nat :=
  (List.range width).filter fun place => place ≠ 0 ∧ place ≠ key

/-- The rows at the two positions are there and have equal cells in the join columns. -/
def Agree (first second : Table) (firstKey secondKey : Nat) (pair : Nat × Nat) : Prop :=
  ∃ left right cell, first.rows[pair.1]? = some left ∧ second.rows[pair.2]? = some right ∧
    left[firstKey]? = some cell ∧ right[secondKey]? = some cell

/-- The names that the kept columns have in a join. -/
def keptNames (table : Table) (key : Nat) : List String :=
  (pick (keptPlaces table.columns.length key) table.columns).map fun column =>
    table.name ++ "." ++ column

/-- The kept cells of the row at the position. -/
def keptCells (table : Table) (key position : Nat) : Row :=
  pick (keptPlaces table.columns.length key) (table.rows.getD position [])

/-- The result is the join of the two tables in the two columns. -/
structure Joined (first second : Table) (firstKey secondKey : Nat) (result : ResultSet) :
    Prop where
  header : result.columns = primaryKey :: (first.keptNames firstKey ++ second.keptNames secondKey)
  rows : ∃ pairs : List (Nat × Nat), pairs.Pairwise (Prod.Lex (· < ·) (· < ·)) ∧
    (∀ pair, pair ∈ pairs ↔ Agree first second firstKey secondKey pair) ∧
    result.rows = pairs.mapIdx fun place pair =>
      toString (place + 1) :: (first.keptCells firstKey pair.1 ++ second.keptCells secondKey pair.2)
  aligned : ∀ row ∈ result.rows, row.length = result.columns.length

variable {first second : Table} {firstKey secondKey : Nat} {result other : ResultSet}

theorem keep_eq_pick (key : Nat) (cells : Row) :
    keep key cells = pick (keptPlaces cells.length key) cells := by
  have numbered : cells.zipIdx =
      (List.range cells.length).map fun place => (cells.getD place "", place) := by
    refine List.ext_getElem (by simp) fun place inside _ => ?_
    rw [List.length_zipIdx] at inside
    rw [List.getElem_zipIdx, List.getElem_map, List.getElem_range,
      List.getD_eq_getElem _ _ inside, Nat.zero_add]
  rw [keep, numbered, List.filter_map, List.map_map, pick, keptPlaces]
  refine congrArg (List.map fun place => cells.getD place "") (List.filter_congr fun place _ => ?_)
  rw [Bool.eq_iff_iff]
  simp

theorem keep_getD (wide : ∀ row ∈ first.rows, row.length = first.columns.length) (key : Nat)
    {position : Nat} (inside : position < first.rows.length) :
    keep key (first.rows.getD position []) = first.keptCells key position := by
  have width : (first.rows.getD position []).length = first.columns.length := by
    rw [List.getD_eq_getElem _ _ inside]
    exact wide _ (List.getElem_mem inside)
  rw [keep_eq_pick, width, keptCells]

/-- The positions of the rows that agree, row by row. -/
def agreeingPlaces (firstKey secondKey : Nat) (firstRows secondRows : List Row) :
    List (Nat × Nat) :=
  (List.range firstRows.length).flatMap fun place =>
    ((List.range secondRows.length).filter fun other =>
      (firstRows.getD place []).getD firstKey "" ==
        (secondRows.getD other []).getD secondKey "").map fun other => (place, other)

theorem agreeingPairs_eq (firstRows secondRows : List Row) :
    agreeingPairs firstKey secondKey firstRows secondRows =
      (agreeingPlaces firstKey secondKey firstRows secondRows).map fun pair =>
        (firstRows.getD pair.1 [], secondRows.getD pair.2 []) := by
  conv_lhs => rw [← map_getD_range firstRows [], ← map_getD_range secondRows []]
  simp only [agreeingPairs, agreeingPlaces, List.flatMap_map, List.map_flatMap, List.filter_map,
    List.map_map, Function.comp_def]

theorem pairwise_agreeingPlaces (firstRows secondRows : List Row) :
    (agreeingPlaces firstKey secondKey firstRows secondRows).Pairwise
      (Prod.Lex (· < ·) (· < ·)) := by
  rw [agreeingPlaces, List.pairwise_flatMap]
  constructor
  · intro place _
    rw [List.pairwise_map]
    exact (List.pairwise_lt_range.filter _).imp fun below => Prod.Lex.right _ below
  · refine List.pairwise_lt_range.imp fun below pair inside other later => ?_
    obtain ⟨_, _, rfl⟩ := List.mem_map.mp inside
    obtain ⟨_, _, rfl⟩ := List.mem_map.mp later
    exact Prod.Lex.left _ _ below

theorem mem_agreeingPlaces (firstWide : ∀ row ∈ first.rows, firstKey < row.length)
    (secondWide : ∀ row ∈ second.rows, secondKey < row.length) (pair : Nat × Nat) :
    pair ∈ agreeingPlaces firstKey secondKey first.rows second.rows ↔
      Agree first second firstKey secondKey pair := by
  obtain ⟨place, other⟩ := pair
  simp only [agreeingPlaces, List.mem_flatMap, List.mem_map, List.mem_filter, List.mem_range,
    beq_iff_eq, Prod.mk.injEq]
  constructor
  · rintro ⟨_, inFirst, _, ⟨inSecond, same⟩, rfl, rfl⟩
    have inLeft := firstWide _ (List.getElem_mem inFirst)
    have inRight := secondWide _ (List.getElem_mem inSecond)
    rw [List.getD_eq_getElem _ _ inFirst, List.getD_eq_getElem _ _ inSecond,
      List.getD_eq_getElem _ _ inLeft, List.getD_eq_getElem _ _ inRight] at same
    refine ⟨_, _, _, List.getElem?_eq_getElem inFirst, List.getElem?_eq_getElem inSecond,
      List.getElem?_eq_getElem inLeft, ?_⟩
    rw [same]
    exact List.getElem?_eq_getElem inRight
  · rintro ⟨left, right, cell, atFirst, atSecond, inLeft, inRight⟩
    have inFirst := (List.getElem?_eq_some_iff.mp atFirst).1
    have inSecond := (List.getElem?_eq_some_iff.mp atSecond).1
    refine ⟨place, inFirst, other, ⟨inSecond, ?_⟩, rfl, rfl⟩
    simp only [List.getD_eq_getElem?_getD, atFirst, atSecond, Option.getD_some, inLeft, inRight]

theorem joined_join (firstWide : ∀ row ∈ first.rows, row.length = first.columns.length)
    (secondWide : ∀ row ∈ second.rows, row.length = second.columns.length)
    (inFirst : firstKey < first.columns.length) (inSecond : secondKey < second.columns.length) :
    first.Joined second firstKey secondKey (first.join second firstKey secondKey) := by
  have agree := mem_agreeingPlaces (fun row member => (firstWide row member).symm ▸ inFirst)
    (fun row member => (secondWide row member).symm ▸ inSecond)
  have rows : (first.join second firstKey secondKey).rows =
      (agreeingPlaces firstKey secondKey first.rows second.rows).mapIdx fun place pair =>
        toString (place + 1) ::
          (first.keptCells firstKey pair.1 ++ second.keptCells secondKey pair.2) := by
    simp only [join, agreeingPairs_eq]
    refine List.ext_getElem (by simp) fun place _ inside => ?_
    rw [List.length_mapIdx] at inside
    obtain ⟨left, right, cell, atFirst, atSecond, -, -⟩ :=
      (agree _).mp (List.getElem_mem inside)
    have inFirst := (List.getElem?_eq_some_iff.mp atFirst).1
    have inSecond := (List.getElem?_eq_some_iff.mp atSecond).1
    simp only [List.getElem_map, List.getElem_zipIdx, List.getElem_mapIdx,
      keep_getD firstWide _ inFirst, keep_getD secondWide _ inSecond, Nat.add_comm 1]
  refine
    { header := by simp only [join, joinedColumns, keep_eq_pick, keptNames]
      rows := ⟨_, pairwise_agreeingPlaces _ _, agree, rows⟩
      aligned := ?_ }
  intro row member
  rw [rows] at member
  obtain ⟨place, inside, rfl⟩ := List.mem_mapIdx.mp member
  simp [join, joinedColumns, keep_eq_pick, keptCells]

/-- There is one join only. -/
theorem Joined.unique (joined : first.Joined second firstKey secondKey result)
    (again : first.Joined second firstKey secondKey other) : result = other := by
  obtain ⟨pairs, ordered, agree, rows⟩ := joined.rows
  obtain ⟨others, otherOrdered, otherAgree, otherRows⟩ := again.rows
  have irreflexive : Std.Irrefl (Prod.Lex (· < ·) (· < ·) : Nat × Nat → Nat × Nat → Prop) :=
    ⟨fun pair => by simp [Prod.lex_def]⟩
  have antisymmetric : Std.Antisymm (Prod.Lex (· < ·) (· < ·) : Nat × Nat → Nat × Nat → Prop) :=
    ⟨fun first second below above => by
      rw [Prod.lex_def] at below above
      omega⟩
  have same : pairs = others := List.Pairwise.eq_of_mem_iff ordered otherOrdered fun pair =>
    (agree pair).trans (otherAgree pair).symm
  obtain ⟨columns, _⟩ := result
  obtain ⟨otherColumns, _⟩ := other
  have header : columns = otherColumns := joined.header.trans again.header.symm
  simp only at rows otherRows
  rw [header, rows, otherRows, same]

end Table

/-- The cells of a row with the names that they stand under, without the number in front. -/
def ResultSet.labelled (result : ResultSet) (row : Row) : List (String × String) :=
  (result.columns.zip row).tail

/-- The same rows in another order, and in each of them the same cells under the same names, the
numbers in front apart. -/
structure ResultSet.Rearranges (result other : ResultSet) : Prop where
  header : result.columns.Perm other.columns
  rows : ∃ places : Fin result.rows.length ≃ Fin other.rows.length, ∀ place,
    (result.labelled (result.rows.get place)).Perm
      (other.labelled (other.rows.get (places place)))

namespace Table

variable {first second : Table} {firstKey secondKey : Nat} {result other : ResultSet}

theorem Agree.swap {pair : Nat × Nat} (agree : Agree first second firstKey secondKey pair) :
    Agree second first secondKey firstKey pair.swap := by
  obtain ⟨left, right, cell, atFirst, atSecond, inLeft, inRight⟩ := agree
  exact ⟨right, left, cell, atSecond, atFirst, inRight, inLeft⟩

theorem Joined.labelled (joined : first.Joined second firstKey secondKey result) (number : String)
    (pair : Nat × Nat) :
    result.labelled
        (number :: (first.keptCells firstKey pair.1 ++ second.keptCells secondKey pair.2)) =
      (first.keptNames firstKey).zip (first.keptCells firstKey pair.1) ++
        (second.keptNames secondKey).zip (second.keptCells secondKey pair.2) := by
  have width : (first.keptNames firstKey).length = (first.keptCells firstKey pair.1).length := by
    simp [keptNames, keptCells]
  rw [ResultSet.labelled, joined.header, List.zip_cons_cons, List.tail_cons, List.zip_append width]

/-- Lists without repetitions that correspond by their members correspond by their positions. -/
theorem exists_places {Item Other : Type} [DecidableEq Item] [DecidableEq Other]
    {items : List Item} {others : List Other} (distinct : items.Nodup) (apart : others.Nodup)
    (partner : Item ≃ Other) (same : ∀ item, item ∈ items ↔ partner item ∈ others) :
    ∃ places : Fin items.length ≃ Fin others.length,
      ∀ place, others.get (places place) = partner (items.get place) := by
  let across : { item // item ∈ items } ≃ { item // item ∈ others } := partner.subtypeEquiv same
  refine ⟨(distinct.getEquiv items).trans (across.trans (apart.getEquiv others).symm), ?_⟩
  intro place
  have reached := (apart.getEquiv others).apply_symm_apply (across (distinct.getEquiv items place))
  exact congrArg Subtype.val reached

theorem nodup_of_lex {pairs : List (Nat × Nat)}
    (ordered : pairs.Pairwise (Prod.Lex (· < ·) (· < ·))) : pairs.Nodup := by
  refine ordered.imp fun {pair other} below same => ?_
  rw [same, Prod.lex_def] at below
  omega

theorem get_of_eq_mapIdx {Item : Type} {rows : List Row} {items : List Item}
    {row : Nat → Item → Row} (shape : rows = items.mapIdx row) (size : rows.length = items.length)
    (place : Fin rows.length) : rows.get place = row place (items.get (finCongr size place)) := by
  subst shape
  simp

/-- The tables the other way round give the same rows in another order. -/
theorem Joined.rearranges (joined : first.Joined second firstKey secondKey result)
    (mirrored : second.Joined first secondKey firstKey other) : result.Rearranges other := by
  obtain ⟨pairs, ordered, agree, rows⟩ := joined.rows
  obtain ⟨others, otherOrdered, otherAgree, otherRows⟩ := mirrored.rows
  have swapped : ∀ pair : Nat × Nat, pair ∈ pairs ↔ Equiv.prodComm Nat Nat pair ∈ others := by
    intro pair
    rw [agree, otherAgree]
    exact ⟨Agree.swap, Agree.swap⟩
  obtain ⟨places, matched⟩ :=
    exists_places (nodup_of_lex ordered) (nodup_of_lex otherOrdered) _ swapped
  constructor
  · rw [joined.header, mirrored.header]
    exact List.perm_append_comm.cons _
  · have size : result.rows.length = pairs.length := by rw [rows, List.length_mapIdx]
    have otherSize : others.length = other.rows.length := by rw [otherRows, List.length_mapIdx]
    refine ⟨(finCongr size).trans (places.trans (finCongr otherSize)), fun place => ?_⟩
    have back : ∀ spot, finCongr otherSize.symm (finCongr otherSize spot) = spot := fun _ => rfl
    rw [get_of_eq_mapIdx rows size, get_of_eq_mapIdx otherRows otherSize.symm, joined.labelled,
      mirrored.labelled, Equiv.trans_apply, Equiv.trans_apply, back, matched]
    exact List.perm_append_comm

end Table

end TextTables
