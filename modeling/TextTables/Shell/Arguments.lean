/-!
# Arguments of the command line

The command line names the directory of the store and a database to select. Arguments count
in the order in which they are written: the version is shown as soon as it is asked for, if
nothing was wrong before.
-/

namespace TextTables.Shell

/-- What the command line asks for. -/
inductive Invocation where
  | showVersion
  | serve (root database : Option String)
deriving DecidableEq

namespace Invocation

/-- An argument that is an option, or that ends the options. -/
def isOption (argument : String) : Bool :=
  match argument.toList with
  | '-' :: _ :: _ => true
  | _ => false

/-- Takes the directory of the store, which is given once and is not empty. -/
def setRoot? (root : Option String) (value : String) : Option String :=
  if root.isSome || value.isEmpty then none else some value

/-- Reads what follows the end of the options, which is at most a database. -/
def ofOperands? (root : Option String) : Option String → List String → Option Invocation
  | database, [] => some (.serve root database)
  | none, [database] => some (.serve root (some database))
  | _, _ => none

/-- Reads the arguments, with what those before them gave. -/
def ofArguments? (root database : Option String) : List String → Option Invocation
  | [] => some (.serve root database)
  | "--" :: operands => ofOperands? root database operands
  | "--version" :: _ => some .showVersion
  | ["--root"] => none
  | "--root" :: value :: rest =>
      if isOption value then none
      else
        match setRoot? root value with
        | some value => ofArguments? (some value) database rest
        | none => none
  | argument :: rest =>
      if "--root=".toList.isPrefixOf argument.toList then
        match setRoot? root (String.ofList (argument.toList.drop 7)) with
        | some value => ofArguments? (some value) database rest
        | none => none
      else if "-V".toList.isPrefixOf argument.toList then some .showVersion
      else if isOption argument || database.isSome then none
      else ofArguments? root (some argument) rest

/-- Reads the arguments of a command line. -/
def parse? (arguments : List String) : Option Invocation :=
  ofArguments? none none arguments

end Invocation

end TextTables.Shell
