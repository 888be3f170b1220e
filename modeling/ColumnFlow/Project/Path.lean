/-!
# Paths

A path is a text of names between slashes. A place in a file tree is the list of names that leads to it from
the top. Paths are cleaned by their text alone: `.` and empty names are dropped, and `..` takes away the name
before it.
-/

namespace ColumnFlow

/-- The names that lead from the top of a file tree to one of its nodes. -/
abbrev Place := List String

namespace Path

/-- Cut a text at each slash. -/
def cutSlashes : List Char → List (List Char)
  | [] => [[]]
  | c :: rest =>
    if c == '/' then [] :: cutSlashes rest
    else match cutSlashes rest with
      | part :: parts => (c :: part) :: parts
      | [] => [[c]]

def parts (path : String) : List String := (cutSlashes path.toList).map String.ofList

def isAbsolute (path : String) : Bool := path.toList.head? == some '/'

/-- Clean a list of names. `kept` holds the names so far, latest first. At the top, `..` leads nowhere. -/
def cleanNames (rooted : Bool) : List String → List String → List String
  | kept, [] => kept.reverse
  | kept, name :: rest =>
    if name == "" || name == "." then cleanNames rooted kept rest
    else if name == ".." then
      match kept with
      | last :: before =>
        if last == ".." then cleanNames rooted (".." :: kept) rest else cleanNames rooted before rest
      | [] => cleanNames rooted (if rooted then [] else [".."]) rest
    else cleanNames rooted (name :: kept) rest

/-- The shortest path that is the same by its text. -/
def clean (path : String) : String :=
  let rooted := isAbsolute path
  let names := "/".intercalate (cleanNames rooted [] (parts path))
  if rooted then "/" ++ names else if names == "" then "." else names

/-- Two paths one after the other. -/
def join (a b : String) : String :=
  if a == "" then if b == "" then "" else clean b else clean (a ++ "/" ++ b)

/-- The place a path leads to from a folder. -/
def place (folder : Place) (path : String) : Place :=
  cleanNames true [] (if isAbsolute path then parts path else folder ++ parts path)

/-- The path of a place. -/
def ofPlace (place : Place) : String := "/" ++ "/".intercalate place

/-- The folder of a path, by its text. -/
def folder (path : String) : String :=
  match (parts path).reverse with
  | _ :: [] => "."
  | _ :: before => clean ("/".intercalate before.reverse ++ "/")
  | [] => "."

/-- The last name of a path, slashes at its end apart. -/
def baseName (path : String) : String :=
  if path == "" then "."
  else match (parts path).reverse.dropWhile (· == "") with
    | name :: _ => name
    | [] => "/"

/-- The last name of a path without what follows its last dot, and that part with the dot. -/
def splitExtension (path : String) : String × String :=
  let cs := path.toList.reverse
  let tail := cs.takeWhile fun c => c != '.' && c != '/'
  match cs.drop tail.length with
  | '.' :: before => (String.ofList before.reverse, String.ofList ('.' :: tail.reverse))
  | _ => (path, "")

def extension (path : String) : String := (splitExtension path).2

/-- The path without its extension. -/
def stem (path : String) : String := (splitExtension path).1

end Path

end ColumnFlow
