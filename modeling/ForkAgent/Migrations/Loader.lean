import ForkAgent.Python.Basic
import Mathlib.Data.List.Perm.Subperm
import Mathlib.Data.List.Sort
import Mathlib.Data.String.Basic

/-!
# Loading migrations

A migration is a file of the migrations directory whose name starts with its version. The script
that undoes a migration lies in the same directory, under a name made of the version.
-/

namespace ForkAgent.Migrations

/-- An entry of a directory, with what `read_text` makes of it. -/
structure DirEntry where
  name : String
  isFile : Bool := true
  text : Except Exn String
  deriving DecidableEq

structure Migration where
  version : Nat
  name : String
  sql : String
  deriving DecidableEq, Repr

/-- `int` of a string of decimal digits. -/
def intOfDigits (digits : List Char) : Nat :=
  digits.foldl (fun n c => 10 * n + (decimal c).getD 0) 0

def SQL : List Char := ".sql".toList

/-- `file_path.suffix == ".sql"`. -/
def hasSqlSuffix (name : String) : Bool := SQL.isSuffixOf name.toList ∧ SQL.length < name.length

/-- The groups of `MIGRATION_PATTERN` in a name that ends in `.sql`. A `\d` matches the decimal digits of
Unicode, which end at the first underscore, and the dot matches any character but a line feed. -/
def MIGRATION_PATTERN (name : String) : Option (Nat × String) :=
  let digits := name.toList.takeWhile fun c => (decimal c).isSome
  match name.toList.drop digits.length with
  | '_' :: rest =>
    let description := rest.take (rest.length - SQL.length)
    if digits ≠ [] ∧ SQL.isSuffixOf rest ∧ description ≠ [] ∧ '\n' ∉ description then
      some (intOfDigits digits, String.ofList description)
    else none
  | _ => none

/-- What the loader makes of one file. -/
def DirEntry.migration (entry : DirEntry) : Except Exn Migration :=
  match MIGRATION_PATTERN entry.name with
  | none => .error (.migrationLoadError
      s!"Invalid migration filename: {entry.name}. Expected format: NNN_description.sql")
  | some (version, name) => do
    let sql ← entry.text
    return { version, name, sql }

/-- The files that the loader looks at, sorted by name. -/
def sqlFiles (dir : List DirEntry) : List DirEntry :=
  (dir.insertionSort fun entry other => entry.name ≤ other.name).filter fun entry =>
    entry.isFile ∧ hasSqlSuffix entry.name

/-- `load_migrations`; `none` is a directory that does not exist. -/
def loadMigrations : Option (List DirEntry) → Except Exn (List Migration)
  | none => .ok []
  | some dir => do
    let migrations ← (sqlFiles dir).mapM (·.migration)
    return migrations.insertionSort fun m other => m.version ≤ other.version

/-- `f"{version:03d}"`. -/
def threeDigits (version : Nat) : String :=
  String.ofList (List.replicate (3 - (toString version).length) '0') ++ toString version

/-- The file in which `rollback_migration` looks for the script that undoes a version. -/
def rollbackFile (version : Nat) : String := s!"{threeDigits version}_rollback.sql"

/-- The file is the one that undoes the version in its name. -/
def DirEntry.isRollback (entry : DirEntry) : Bool :=
  match MIGRATION_PATTERN entry.name with
  | some (version, _) => entry.name = rollbackFile version
  | none => false

/-- The scripts of a directory that lead forward, as migrations. -/
def forwardScripts (dir : Option (List DirEntry)) : List Migration :=
  ((sqlFiles (dir.getD [])).filter fun entry => !entry.isRollback).filterMap (·.migration.toOption)

end ForkAgent.Migrations
