import Cutscene.Error
import Cutscene.Picture.Typeface

/-!
# The disk

The files that a movie is made from and written to, as a value. A file is known by what it holds: a
picture by its pixels, an animation by its frames, a font by what text looks like in it, anything else by
its text. Paths are relative to the directory of the disk and use slashes.

Stands for the file system of `AssetStore`, `PngSequenceSink`, `FfmpegSink` and `AudioLog.write_json`.
-/

namespace Cutscene

/-- What a file holds. -/
inductive Content where
  /-- Text, which is neither a picture nor a font. -/
  | raw (text : String)
  /-- A still picture with straight colors, row by row. -/
  | still (width height : UInt32) (data : ByteArray)
  /-- An animation whose frames are one opaque color each, with the milliseconds of each. -/
  | animation (width height : UInt32) (frames : List (Color × Nat))
  /-- A drawing of a written size that is filled with one opaque color. -/
  | drawing (width height : String) (color : Color)
  | font (face : Typeface)

/-- What stands at a path. -/
inductive Entry where
  | directory
  | file (content : Content)

/-- Splits at every slash. There is one segment more than there are slashes. -/
def slashSegments : List Char → List (List Char)
  | [] => [[]]
  | c :: r =>
    if c = '/' then [] :: slashSegments r
    else match slashSegments r with
      | [] => [[c]]
      | s :: ss => (c :: s) :: ss

/-- The segments of a path: what its slashes separate, without empty ones and dots. -/
def pathSegments (path : String) : List String :=
  ((slashSegments path.toList).map String.ofList).foldl
    (fun front s => if s = "" ∨ s = "." then front else if s = ".." then front.dropLast else front ++ [s])
    []

/-- Whether a path is written as that of a directory. -/
def endsInSlash (path : String) : Bool := path.toList.getLast? = some '/'

/-- A path below a directory. An empty directory adds nothing, and no slash is doubled. -/
def joinPath (dir name : String) : String :=
  if dir = "" then name else if endsInSlash dir then dir ++ name else dir ++ "/" ++ name

/--
A path read from its end, without the slashes there and without segments there that are dots. A dot
that is the whole path stays.
-/
def dropBlankEnd : List Char → List Char
  | '/' :: r => dropBlankEnd r
  | '.' :: '/' :: r => dropBlankEnd r
  | cs => cs

/-- What is left of a path without its last segment. -/
def parentPath (path : String) : String :=
  let back := dropBlankEnd path.toList.reverse
  String.ofList (dropBlankEnd (back.dropWhile (· ≠ '/'))).reverse

/-- The entries by the segments of their paths. Every entry but the top stands in a directory. -/
structure Disk where
  entries : List (List String × Entry)

namespace Disk

def empty : Disk := ⟨[]⟩

/-- The entry with these segments. The top is a directory. -/
def entry? (d : Disk) (segments : List String) : Option Entry :=
  if segments = [] then some .directory else d.entries.lookup segments

/-- Replaces the entry with these segments. -/
def set (d : Disk) (segments : List String) (e : Entry) : Disk :=
  ⟨(segments, e) :: d.entries.filter (·.1 ≠ segments)⟩

/-- Follows segments downward from a place that has been reached. -/
def follow (d : Disk) (reached : List String) : List String → Except ReadFault Entry
  | [] =>
    match d.entry? reached with
    | none => .error .missing
    | some e => .ok e
  | s :: r =>
    match d.entry? reached with
    | none => .error .missing
    | some (.file _) => .error .notDirectory
    | some .directory =>
      if 255 < s.utf8ByteSize then .error .nameTooLong else follow d (reached ++ [s]) r

/-- What stands at a path. -/
def lookup (d : Disk) (path : String) : Except ReadFault Entry :=
  if path.toList.contains '\x00' then .error .badName
  else if path = "" then .error .missing
  else
    match d.follow [] (pathSegments path) with
    | .ok (.file c) => if endsInSlash path then .error .notDirectory else .ok (.file c)
    | e => e

/-- The content of the file at a path. -/
def read (d : Disk) (path : String) : Except ReadFault Content :=
  match d.lookup path with
  | .error f => .error f
  | .ok .directory => .error .directory
  | .ok (.file c) => .ok c

def exists? (d : Disk) (path : String) : Bool := (d.lookup path).isOk

/-- Whether a path names a file. -/
def isFile (d : Disk) (path : String) : Bool := (d.read path).isOk

/-! ## Changes -/

/-- Makes the directories that follow a place which has been reached; `none` if a file is in the way. -/
def makeFrom (d : Disk) (reached : List String) : List String → Option Disk
  | [] =>
    match d.entry? reached with
    | none => some (d.set reached .directory)
    | some .directory => some d
    | some (.file _) => none
  | s :: r =>
    match d.entry? reached with
    | none => makeFrom (d.set reached .directory) (reached ++ [s]) r
    | some .directory => makeFrom d (reached ++ [s]) r
    | some (.file _) => none

/-- Makes a directory and those above it, if they are missing. -/
def makeDirectories (d : Disk) (path : String) : Option Disk := d.makeFrom [] (pathSegments path)

/-- Writes a file, new or old, into a directory that is there. -/
def write? (d : Disk) (path : String) (c : Content) : Option Disk :=
  let segments := pathSegments path
  if segments = [] ∨ endsInSlash path ∨ path.toList.contains '\x00' then none
  else
    match d.follow [] segments.dropLast, d.entry? segments with
    | .ok .directory, some .directory => none
    | .ok .directory, _ => some (d.set segments (.file c))
    | _, _ => none

/-- Puts an entry at a path; what was in the way of its directories gives way. -/
def put (d : Disk) (path : String) (e : Entry) : Disk :=
  let segments := pathSegments path
  let above := (List.range segments.length).map segments.take
  let d := above.foldl (fun d p => match d.entry? p with
    | some .directory => d
    | _ => d.set p .directory) d
  d.set segments e

/-- Takes away an entry and all below it. -/
def remove (d : Disk) (path : String) : Disk :=
  let segments := pathSegments path
  ⟨d.entries.filter fun (p, _) => !segments.isPrefixOf p⟩

/-- The paths of all files, in the order of their texts. -/
def files (d : Disk) : List String :=
  (d.entries.filterMap fun (p, e) => match e with
    | .file _ => some ("/".intercalate p)
    | .directory => none).mergeSort fun a b => decide (a ≤ b)

/-- The files below a directory. -/
def filesUnder (d : Disk) (dir : String) : List String :=
  let above := pathSegments dir
  d.files.filter fun p => above.isPrefixOf (pathSegments p) && above ≠ pathSegments p

end Disk

end Cutscene
