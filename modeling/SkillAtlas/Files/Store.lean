import SkillAtlas.Fault
import SkillAtlas.Text.Basic

/-!
# Paths and files

A path is a list of names. Empty names and single points are left out when a path is read, so that two
spellings of one path are equal. The files are those that commands can see, each with its bytes. A folder is
whatever holds a file, or has been made.
-/

namespace SkillAtlas

/-! ### Paths -/

structure Path where
  absolute : Bool := false
  names : List String := []
deriving DecidableEq, Repr, Inhabited

namespace Path

def ofText (s : String) : Path where
  absolute := s.toList.head? == some '/'
  names := ((Text.partsBy (· == '/') s.toList).map String.ofList).filter fun n => n != "" && n != "."

def text (p : Path) : String :=
  let names := "/".intercalate p.names
  if p.absolute then "/" ++ names else if p.names.isEmpty then "." else names

/-- A path in the folder that this path names. -/
def join (p : Path) (names : List String) : Path :=
  { p with names := p.names ++ names }

end Path

structure Files where
  files : List (Path × ByteArray) := []
  folders : List Path := []

namespace Files

/-- The folders on the way to a path, the path itself left out. -/
def parents (p : Path) : List Path :=
  (List.range p.names.length).map fun n => { p with names := p.names.take n }

def isFolder (s : Files) (p : Path) : Bool :=
  p.names.isEmpty || s.files.any (fun f => (parents f.1).contains p) ||
    s.folders.any fun f => f == p || (parents f).contains p

/-- Follows the steps to a parent folder in the rest of a path. Nothing is known of what lies outside. -/
def followed? (s : Files) (p : Path) : List String → Option Path
  | [] => some p
  | n :: rest =>
    if n == ".." then
      if p.names.isEmpty || !s.isFolder p then none
      else followed? s { p with names := p.names.dropLast } rest
    else followed? s (p.join [n]) rest

/-- The path without steps to parent folders, if it stays among the known files. -/
def resolved? (s : Files) (p : Path) : Option Path :=
  s.followed? { p with names := [] } p.names

def bytes? (s : Files) (p : Path) : Option ByteArray :=
  (s.files.lookup p).or ((s.resolved? p).bind fun q => s.files.lookup q)

def isFile (s : Files) (p : Path) : Bool :=
  (s.bytes? p).isSome

def isThere (s : Files) (p : Path) : Bool :=
  s.isFile p || s.folders.contains p || (s.resolved? p).any s.isFolder

/-- The text of bytes, with plain line ends. -/
def textOf (bytes : ByteArray) : Except Fault String :=
  match String.fromUTF8? bytes with
  | some s => .ok (.ofList (Text.withPlainLineEnds s.toList))
  | none => .error .notUtf8

def read (s : Files) (p : Path) : Except Fault String :=
  match s.bytes? p with
  | some bytes => textOf bytes
  | none => .error (if s.isThere p then .isFolder else .noFile)

/-- Writes a file, in place of the one that was there. -/
def write (s : Files) (p : Path) (text : String) : Files :=
  { s with files := (p, text.toUTF8) :: s.files.filter fun f => f.1 != p }

def makeFolder (s : Files) (p : Path) : Files :=
  if s.folders.contains p then s else { s with folders := p :: s.folders }

end Files

end SkillAtlas
