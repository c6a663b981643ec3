import StakeLedger.Text.Pieces

/-!
# Paths

A path is a text with slashes between names.  What it leads to depends on the
directory that it is followed in; here it is only taken apart.

Main definitions:

- {lit}`Path.names`: the names that a path goes through.
- {lit}`Path.join`: the path of a file in a directory.
- {lit}`Path.split`: the path of the directory around, and the name in it.
- {lit}`Path.plainNames`: the names of a path that is shortened before it is followed.

Main results:

- Theorem {lit}`Path.length_split_lt`: the directory around has a shorter path.
-/

namespace StakeLedger.Path

/-- The name of the directory that contains all others. -/
def rootName : String := "/"

/-- The names that a path goes through.  A slash at its beginning stands for the
directory that contains all others, one at its end for the directory itself. -/
def names (path : String) : List String :=
  (if path.startsWith "/" then [rootName] else []) ++
    ((pieces '/' path.toList).map String.ofList).filter (· ≠ "") ++
      (if path.endsWith "/" then ["."] else [])

/-- The path of a file in a directory. -/
def join (directory file : String) : String :=
  if directory = "" || directory.endsWith "/" then directory ++ file
  else s!"{directory}/{file}"

/-- A path without the slashes at its end. -/
def withoutSlashes (path : List Char) : List Char :=
  (path.reverse.dropWhile (· = '/')).reverse

/-- The path of the directory around, and the name behind the last slash. -/
def splitAtSlash (path : List Char) : List Char × List Char :=
  let name := (path.reverse.takeWhile (· ≠ '/')).reverse
  (withoutSlashes (path.take (path.length - name.length)), name)

/-- The path of the directory around, and the last name. -/
def split (path : List Char) : List Char × List Char :=
  splitAtSlash (withoutSlashes path)

/-- The places where paths begin: the working directory and the root. -/
def isStart (names : List String) : Bool :=
  names = [] || names = [rootName]

/-- One step up; there is none from where paths begin. -/
def up (names : List String) : List String :=
  if isStart names then names else names.dropLast

/-- The names of a path that is shortened before it is followed: a step up takes
the name before it away. -/
def plainNames (path : String) : List String :=
  (names path).foldl (fun taken name =>
    if name = "." then taken else if name = ".." then up taken else taken ++ [name]) []

/-! ## The directory around -/

/-- Taking slashes away does not make a path longer. -/
theorem length_withoutSlashes_le (path : List Char) :
    (withoutSlashes path).length ≤ path.length := by
  have h := (List.dropWhile_suffix (fun c : Char => decide (c = '/')) (l := path.reverse)).length_le
  simpa [withoutSlashes] using h

/-- The directory around has a shorter path, if there is a name in it. -/
theorem length_split_lt (path : List Char) (h : (split path).2 ≠ []) :
    (split path).1.length < path.length := by
  have hname : 0 < (split path).2.length := List.length_pos_iff.mpr h
  have hle : (split path).2.length ≤ (withoutSlashes path).length := by
    have h := (List.takeWhile_prefix (fun c : Char => decide (c ≠ '/'))
      (l := (withoutSlashes path).reverse)).length_le
    simpa [split, splitAtSlash] using h
  have hpath := length_withoutSlashes_le path
  have hhead : (split path).1.length ≤ (withoutSlashes path).length - (split path).2.length := by
    refine Nat.le_trans (length_withoutSlashes_le _) ?_
    simp only [List.length_take]
    exact Nat.min_le_left _ _
  omega

end StakeLedger.Path
