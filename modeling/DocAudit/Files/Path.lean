import DocAudit.Text.Split

/-!
# Paths

Paths are texts with slashes between their elements.  `cleanPath` gives the shortest path with the
same meaning, as long as no link is involved; the other functions give cleaned paths too.
-/

namespace DocAudit.Files

open DocAudit.Text

/-- The path elements that remain after `.` and `..` are worked out, in reverse. -/
def resolveElements (rooted : Bool) : List (List Char) → List (List Char) → List (List Char)
  | done, [] => done
  | done, w :: ws =>
    if w.isEmpty || w == ['.'] then resolveElements rooted done ws
    else if w == ['.', '.'] then
      match done with
      | [] => resolveElements rooted (if rooted then [] else [w]) ws
      | d :: ds =>
        if d == ['.', '.'] then resolveElements rooted (w :: d :: ds) ws
        else resolveElements rooted ds ws
    else resolveElements rooted (w :: done) ws

/-- The shortest path equivalent to a path: no empty, `.` or inner `..` element. -/
def cleanPath (s : String) : String :=
  let cs := s.toList
  let rooted := cs.head? == some '/'
  let body := join "/" ((resolveElements rooted [] (splitAt '/' cs)).reverse.map String.ofList)
  if rooted then "/" ++ body else if body == "" then "." else body

/-- The directory part of a path, up to and with its last slash. -/
def dirPart (s : String) : String :=
  match cutLast '/' s.toList with
  | some (d, _) => String.ofList (d ++ ['/'])
  | none => ""

/-- Paths put together, empty ones left out. -/
def joinPath (parts : List String) : String :=
  let ps := parts.filter (· != "")
  if ps.isEmpty then "" else cleanPath (join "/" ps)

/-- The last element of a path. -/
def baseName (s : String) : String :=
  let cs := (s.toList.reverse.dropWhile (· == '/')).reverse
  if s == "" then "."
  else if cs.isEmpty then "/"
  else match cutLast '/' cs with
    | some (_, b) => String.ofList b
    | none => String.ofList cs

/-- The directory of a path. -/
def dirName (s : String) : String := cleanPath (dirPart s)

/-- The elements of a clean path; none for the current directory. -/
def elements (s : String) : List String :=
  ((wordsBy (· == '/') s.toList).map String.ofList).filter (· != ".")

/-- Two lists without the elements that they share at their start. -/
def dropCommon : List String → List String → List String × List String
  | a :: as, b :: bs => if a == b then dropCommon as bs else (a :: as, b :: bs)
  | as, bs => (as, bs)

/-- The way from one path to another, if both start at the same place. -/
def relativePath (start goal : String) : String :=
  let (up, down) := dropCommon (elements (cleanPath start)) (elements (cleanPath goal))
  let parts := up.map (fun _ => "..") ++ down
  if parts.isEmpty then "." else join "/" parts

end DocAudit.Files
