/-!
# Paths

A path is written as segments with slashes between them. Segments can be empty: two slashes in
a row or a slash at the end leave one, and a path that starts at the top begins with one.
-/

namespace TextTables

structure Path where
  segments : List String
deriving DecidableEq

namespace Path

def ofText (text : String) : Path :=
  ⟨(text.toList.splitOn '/').map String.ofList⟩

def text (path : Path) : String :=
  "/".intercalate path.segments

/-- The number of bytes that the path is written with. -/
def size (path : Path) : Nat :=
  (path.segments.map fun segment => segment.utf8ByteSize + 1).foldr (· + ·) 0 - 1

/-- The path starts at the top. -/
def isAbsolute (path : Path) : Bool :=
  match path.segments with
  | "" :: _ :: _ => true
  | _ => false

/-- The second path seen from the directory that the first one names. -/
def join (base : Path) (name : String) : Path :=
  let tail := ofText name
  if tail.isAbsolute then tail
  else if base.segments.getLast? = some "" then ⟨base.segments.dropLast ++ tail.segments⟩
  else ⟨base.segments ++ tail.segments⟩

/-- The path without slashes at its end. -/
def withoutEnd (path : Path) : Path :=
  ⟨(path.segments.reverse.dropWhile (· == "")).reverse⟩

/-- The segments that lead somewhere. -/
def steps (path : Path) : List String :=
  path.segments.filter fun segment => segment != "" && segment != "."

/-- The directories that the path goes through, the nearest first. -/
def ancestors (path : Path) : List Path :=
  let lead := if path.isAbsolute then [""] else []
  (List.range' 1 (path.steps.length - 1)).reverse.map fun count =>
    ⟨lead ++ path.steps.take count⟩

theorem ofText_plain {name : String} (plain : '/' ∉ name.toList) : ofText name = ⟨[name]⟩ := by
  have whole : name.toList.splitOn '/' = [name.toList] := by
    have split := @List.splitOn_intercalate _ [name.toList] _ _ '/' (by simpa using plain) (by simp)
    simpa using split
  simp [ofText, whole]

/-- A plain name is one more segment. -/
theorem join_plain {base : Path} {name : String} (plain : '/' ∉ name.toList)
    (ended : base.segments.getLast? ≠ some "") :
    base.join name = ⟨base.segments ++ [name]⟩ := by
  simp [join, ofText_plain plain, isAbsolute, ended]

example : ((ofText "root").join "d").text = "root/d" ∧ ((ofText "root/").join "").text = "root/" ∧
    ((ofText "root").join "/d").text = "/d" := by decide +kernel

end Path

end TextTables
