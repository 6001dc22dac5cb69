import TextTables.Proofs.Text.Names
import TextTables.Store

/-!
# The names of table files

A table has two files, and its name is read back from that of the first one. The files of two
tables never have the same name, and the first file is named whenever the second one is.
-/

namespace TextTables

open Text Store

theorem IsName.isFileName_table {name : String} (named : IsName name) :
    IsFileName (name ++ tableEnding) :=
  named.isFileName_append (by decide) (by decide)

theorem IsName.isFileName_counter {name : String} (named : IsName name) :
    IsFileName (name ++ counterEnding) :=
  named.isFileName_append (by decide) (by decide)

/-- The name of a table ends in nothing that tells its second file from its first one. -/
theorem IsName.not_counterEnding {name : String} (named : IsName name) :
    ¬ counterEnding.toList <:+ (name ++ tableEnding).toList := by
  rintro ⟨front, spelled⟩
  have ending : counterEnding.toList = "_config".toList ++ tableEnding.toList := by decide
  rw [ending, ← List.append_assoc, String.toList_append] at spelled
  have whole := List.append_cancel_right spelled
  have inside : '_' ∈ name.toList := by
    rw [← whole]
    exact List.mem_append_right _ (by decide)
  exact absurd (named.isAlphanum inside) (by decide)

theorem stem?_table {name : String} (named : IsName name) :
    stem? (name ++ tableEnding) = some name := by
  have notCounter : counterEnding.toList.isSuffixOf (name ++ tableEnding).toList = false := by
    rw [Bool.eq_false_iff, Ne, List.isSuffixOf_iff_suffix]
    exact named.not_counterEnding
  have isTable : tableEnding.toList.isSuffixOf (name ++ tableEnding).toList = true := by
    rw [List.isSuffixOf_iff_suffix, String.toList_append]
    exact List.suffix_append _ _
  rw [stem?, notCounter, isTable]
  simp

theorem stem?_counter (name : String) : stem? (name ++ counterEnding) = none := by
  have isCounter : counterEnding.toList.isSuffixOf (name ++ counterEnding).toList = true := by
    rw [List.isSuffixOf_iff_suffix, String.toList_append]
    exact List.suffix_append _ _
  rw [stem?, isCounter, if_pos rfl]

theorem append_ending_inj {first second ending : String}
    (same : first ++ ending = second ++ ending) : first = second := by
  have spelled := congrArg String.toList same
  rw [String.toList_append, String.toList_append] at spelled
  exact String.toList_injective (List.append_cancel_right spelled)

theorem table_ne_counter {name : String} (named : IsName name) (other : String) :
    name ++ tableEnding ≠ other ++ counterEnding := by
  intro same
  apply named.not_counterEnding
  rw [same, String.toList_append]
  exact List.suffix_append _ _

/-- The two files of one table have different names, whatever its name is. -/
theorem table_ne_own_counter (name : String) : name ++ tableEnding ≠ name ++ counterEnding := by
  intro same
  have spelled := congrArg String.toList same
  rw [String.toList_append, String.toList_append, List.append_cancel_left_eq] at spelled
  exact absurd spelled (by decide)

namespace Path

/-- Of two names in a directory, the shorter one makes the shorter path. -/
theorem size_join_le {directory : Path} {short long : String} (shortPlain : '/' ∉ short.toList)
    (longPlain : '/' ∉ long.toList) (shorter : short.utf8ByteSize ≤ long.utf8ByteSize) :
    (directory.join short).size ≤ (directory.join long).size := by
  rw [join_eq shortPlain, join_eq longPlain]
  simp only [size, ← List.sum_eq_foldr, List.map_append, List.sum_append, List.map_cons,
    List.map_nil, List.sum_cons, List.sum_nil]
  omega

theorem CanName.of_shorter {directory : Path} {short long : String}
    (fits : directory.CanName long) (shortPlain : '/' ∉ short.toList)
    (longPlain : '/' ∉ long.toList) (shorter : short.utf8ByteSize ≤ long.utf8ByteSize) :
    directory.CanName short :=
  ⟨Nat.le_trans shorter fits.1,
    Nat.le_trans (size_join_le shortPlain longPlain shorter) fits.2⟩

/-- Where the second file of a table can be named, the first one can. -/
theorem CanName.table {directory : Path} {name : String} (named : IsName name)
    (fits : directory.CanName (name ++ counterEnding)) :
    directory.CanName (name ++ tableEnding) := by
  apply fits.of_shorter named.isFileName_table.slashFree named.isFileName_counter.slashFree
  rw [String.utf8ByteSize_append, String.utf8ByteSize_append]
  exact Nat.add_le_add_left (by decide) _

end Path

end TextTables
