/-!
Paths of files, as lists of components between slashes. Empty components and single dots do not
count, except a dot at the front.
-/

namespace Jukebox.Path

/-- The parts between slashes. -/
def parts (cs : List Char) : List (List Char) :=
  cs.foldr (fun c acc =>
    if c = '/' then [] :: acc
    else match acc with
      | [] => [[c]]
      | first :: rest => (c :: first) :: rest) [[]]

/-- The components that count. -/
def components (cs : List Char) : List (List Char) :=
  let rooted := cs.head? = some '/'
  let ps := parts cs
  (ps.zipIdx.filter fun (p, i) => !p.isEmpty && (p != ['.'] || (i == 0 && !rooted))).map (·.1)

/-- The last component, when it names a file. -/
def fileName (cs : List Char) : Option (List Char) :=
  match (components cs).getLast? with
  | none => none
  | some last => if last = ['.'] ∨ last = ['.', '.'] then none else some last

/-- A name without what follows its last dot. A dot at the front does not count. -/
def stem (name : List Char) : List Char :=
  match (name.reverse.dropWhile (· != '.')) with
  | [] => name
  | _ :: before => if before.isEmpty then name else before.reverse

/-- The title a path gives a track: the stem of its file name, or the whole path if it has none. -/
def title (path : String) : String :=
  match fileName path.toList with
  | some name => String.ofList (stem name)
  | none => path

end Jukebox.Path
