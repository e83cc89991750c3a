import Mathlib.Data.List.DropRight

/-!
# Names of files

The last part of a path with its suffix, as `pathlib` has them: a name has a suffix where a dot stands
neither at its start nor at its end.
-/

namespace ForkAgent

section Names

/-- `PurePath.suffix`. -/
def nameSuffix (name : String) : String :=
  let last := name.toList.rtakeWhile (· ≠ '.')
  let stem := name.toList.take (name.length - last.length - 1)
  if last.length < name.length ∧ last ≠ [] ∧ stem ≠ [] then String.ofList ('.' :: last) else ""

/-- `PurePath.stem`. -/
def nameStem (name : String) : String := String.ofList (name.toList.take (name.length - (nameSuffix name).length))

/-- The name in `PurePath.with_suffix`. -/
def withSuffix (name suffix : String) : String := nameStem name ++ suffix

example : withSuffix "v1.0" ".md" = "v1.md" ∧ withSuffix ".hidden" ".md" = ".hidden.md" := by decide

end Names

end ForkAgent
