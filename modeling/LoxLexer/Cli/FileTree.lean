/-!
# File trees

A file tree is a directory held in memory: the files in it and below it, with
their contents.  Reading by path goes through the components one by one, as a
file system does.  What lies outside the tree is taken to be directories with
nothing else in them.
-/

namespace LoxLexer
namespace Cli

/-- Why a file cannot be read. -/
inductive ReadError where
  | notFound
  | isDirectory
  | notDirectory
  /-- Its content is not text. -/
  | notText
  /-- Another reason, in the words of the system. -/
  | other (reason : String)
deriving DecidableEq

/-- The reason in words. -/
def ReadError.message : ReadError → String
  | .notFound => "No such file or directory (os error 2)"
  | .isDirectory => "Is a directory (os error 21)"
  | .notDirectory => "Not a directory (os error 20)"
  | .notText => "stream did not contain valid UTF-8"
  | .other reason => reason

/-- The text that bytes encode. -/
def decode (content : ByteArray) : Except ReadError String :=
  match String.fromUTF8? content with
  | some text => .ok text
  | none => .error .notText

/-- The components of a path, empty ones included. -/
def components : List Char → List (List Char)
  | [] => [[]]
  | c :: others =>
    match components others with
    | [] => [[c]]
    | part :: parts => if c = '/' then [] :: part :: parts else (c :: part) :: parts

/-- Files by their paths, each path as its components. -/
structure FileTree where
  files : List (List (List Char) × ByteArray)

namespace FileTree

/-- The tree of files given by their names. -/
def ofFiles (files : List (String × ByteArray)) : FileTree :=
  ⟨files.map fun (name, content) => (components name.toList, content)⟩

/-- Where a path has led. -/
inductive Place where
  | outside
  | directory (path : List (List Char))
  | file (content : ByteArray)

/-- The place of a name in a directory of the tree. -/
def lookUp (tree : FileTree) (path : List (List Char)) : Except ReadError Place :=
  match tree.files.find? (·.1 == path) with
  | some (_, content) => .ok (.file content)
  | none =>
    if tree.files.any fun (name, _) => path.isPrefixOf name then
      .ok (.directory path)
    else
      .error .notFound

/-- The place that one component of a path leads to. -/
def enter (tree : FileTree) (place : Place) (component : List Char) :
    Except ReadError Place :=
  match place with
  | .file _ => .error .notDirectory
  | .outside =>
    if component ∈ [[], ['.'], ['.', '.']] then .ok .outside else .error .notFound
  | .directory path =>
    if component ∈ [[], ['.']] then .ok (.directory path)
    else if component = ['.', '.'] then
      .ok (if path.isEmpty then .outside else .directory path.dropLast)
    else tree.lookUp (path ++ [component])

/-- The content of the file at a path. -/
def read (tree : FileTree) (path : String) : Except ReadError ByteArray := do
  let parts := components path.toList
  let start : Place :=
    if path.toList.head? = some '/' then .outside else .directory []
  match ← parts.foldlM tree.enter start with
  | .file content => return content
  | .outside | .directory _ => .error .isDirectory

end FileTree
end Cli
end LoxLexer
