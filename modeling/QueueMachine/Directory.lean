import QueueMachine.Text.Line
import QueueMachine.Text.Quoted
import QueueMachine.Text.Utf8

set_option autoImplicit false

/-!
A directory of files, as far as a program that reads and writes a few of them can see it. Paths are
texts divided by slashes and are taken from the directory itself, or from the root of all if they
start with a slash: an empty component and a dot stay where they are, two dots go up, and every
other component must name something that exists. Only a file that is opened for writing may be new,
and then only its last component. Outside the directory there are the folders above it and the root,
and nothing else is known.
-/

namespace QueueMachine

inductive FileFailure where
  | notFound
  | notDirectory
  | isDirectory
  | nameTooLong
  | nullByte
  deriving DecidableEq, Repr

/-- Why a file could not be opened, and the path by which it was asked for. -/
structure FileError where
  failure : FileFailure
  path : String
  deriving DecidableEq, Repr

def FileError.message (error : FileError) : String :=
  match error.failure with
  | .notFound => "[Errno 2] No such file or directory: " ++ Text.quote error.path
  | .notDirectory => "[Errno 20] Not a directory: " ++ Text.quote error.path
  | .isDirectory => "[Errno 21] Is a directory: " ++ Text.quote error.path
  | .nameTooLong => "[Errno 36] File name too long: " ++ Text.quote error.path
  | .nullByte => "embedded null byte"

namespace Path

def components (path : String) : List String :=
  (Text.splitAtEach '/' path.toList).map String.ofList

/-- The components that name something or go up. -/
def significant (path : String) : List String :=
  (components path).filter fun component => component ≠ "" ∧ component ≠ "."

/-- The slashes that a path keeps at its start: two if it starts with exactly two, else one. -/
def root (path : String) : String :=
  match path.toList with
  | '/' :: '/' :: '/' :: _ => "/"
  | '/' :: '/' :: _ => "//"
  | '/' :: _ => "/"
  | _ => ""

/-- The path without its empty components and dots; a dot alone if nothing else is left. -/
def normalize (path : String) : String :=
  let text := root path ++ "/".intercalate (significant path)
  if text = "" then "." else text

def maxComponentBytes : Nat := 255

def maxPathBytes : Nat := 4095

/-- What is wrong with a path whatever the directory holds. -/
def failure? (path : String) : Option FileFailure :=
  if path.toList.contains '\x00' then some .nullByte
  else if path = "" then some .notFound
  else if maxPathBytes < path.utf8ByteSize then some .nameTooLong
  else none

end Path

inductive Entry where
  | folder
  | file (contents : ByteArray)

instance : DecidableEq Entry
  | .folder, .folder => isTrue rfl
  | .file first, .file second =>
      if same : first.data = second.data then isTrue (congrArg Entry.file (ByteArray.ext same))
      else isFalse fun equal => same (congrArg ByteArray.data (Entry.file.inj equal))
  | .folder, .file _ => isFalse nofun
  | .file _, .folder => isFalse nofun

/-- A place, by the names that lead to it from the directory. A place above the directory has only
double dots, and a slash stands at the start of a place that is reached from the root. -/
abbrev Place := List String

namespace Place

def root : Place := ["/"]

def start (path : String) : Place :=
  if path.startsWith "/" then root else []

/-- Whether the place is the directory itself or a folder above it. -/
def isAbove (place : Place) : Bool :=
  place.all (· = "..")

def isInside (place : Place) : Bool :=
  place.head? ≠ some ".." && place.head? ≠ some "/"

def next (place : Place) (component : String) : Place :=
  if component = "" ∨ component = "." then place
  else if component = ".." then
    if place = root then root
    else if place.isAbove then place ++ [".."]
    else place.dropLast
  else place ++ [component]

end Place

structure Directory where
  entries : List (Place × Entry)

namespace Directory

def empty : Directory := ⟨[]⟩

def entry? (directory : Directory) (place : Place) : Option Entry :=
  if place.isAbove || place = Place.root then some .folder else directory.entries.lookup place

def put (directory : Directory) (place : Place) (entry : Entry) : Directory :=
  ⟨directory.entries.filter (fun old => old.1 ≠ place) ++ [(place, entry)]⟩

/-- Makes a folder and all folders above it, as far as nothing stands there yet. -/
def makeFolder (directory : Directory) (place : Place) : Directory :=
  (List.range (place.length + 1)).foldl
    (fun directory depth =>
      let above := place.take depth
      if (directory.entry? above).isSome then directory else directory.put above .folder)
    directory

def addFile (directory : Directory) (path : String) (contents : ByteArray) : Directory :=
  let place := Path.significant path
  (directory.makeFolder place.dropLast).put place (.file contents)

def addFolder (directory : Directory) (path : String) : Directory :=
  directory.makeFolder (Path.significant path)

def enter (directory : Directory) (place : Place) (component : String) :
    Except FileFailure Place :=
  match directory.entry? place with
  | none => .error .notFound
  | some (.file _) => .error .notDirectory
  | some .folder =>
      let next := place.next component
      if Path.maxComponentBytes < component.utf8ByteSize then .error .nameTooLong
      else if (directory.entry? next).isSome then .ok next
      else .error .notFound

def resolve (directory : Directory) (start : Place) (components : List String) :
    Except FileFailure Place :=
  components.foldlM directory.enter start

def openForReading (directory : Directory) (path : String) : Except FileFailure ByteArray :=
  match Path.failure? path with
  | some failure => .error failure
  | none => do
      let place ← directory.resolve (Place.start path) (Path.components path)
      match directory.entry? place with
      | some (.file contents) => return contents
      | some .folder => throw .isDirectory
      | none => throw .notFound

/-- The place of the file that opening a path for writing makes or empties. A path that ends in a
slash can only mean a folder. -/
def openForWriting (directory : Directory) (path : String) : Except FileFailure Place :=
  match Path.failure? path with
  | some failure => .error failure
  | none =>
      let components := Path.components path
      match (components.reverse.dropWhile (· = "")) with
      | [] => .error .isDirectory
      | name :: above =>
          if name = "." ∨ name = ".." then do
            let _ ← directory.resolve (Place.start path) components
            throw .isDirectory
          else do
            let folder ← directory.resolve (Place.start path) above.reverse
            match directory.entry? folder with
            | some .folder =>
                if components.getLast? = some "" then throw .isDirectory
                else if Path.maxComponentBytes < name.utf8ByteSize then throw .nameTooLong
                else if directory.entry? (folder ++ [name]) = some .folder then throw .isDirectory
                else return folder ++ [name]
            | some (.file _) => throw .notDirectory
            | none => throw .notFound

/-- The files inside the directory that are new or have other contents than before, by path. -/
def changes (before after : Directory) : List (String × ByteArray) :=
  let changed := after.entries.filterMap fun (place, entry) =>
    match entry with
    | .folder => none
    | .file contents =>
        if !place.isInside || before.entry? place = some entry then none
        else some ("/".intercalate place, contents)
  changed.mergeSort fun a b => a.1 ≤ b.1

end Directory

/-- Why a file that has been opened does not take a text: the system refuses it, or there is no
encoding of it. -/
inductive WritingProblem where
  | system (message : String)
  | encoding (message : String)
  deriving DecidableEq, Repr

/-- Why a text could not be read from a file or written to one. -/
inductive FileProblem where
  | opening (error : FileError)
  | decoding (fault : Text.DecodingFault)
  | writing (problem : WritingProblem)
  deriving DecidableEq, Repr

namespace FileProblem

def decodingMessage (fault : Text.DecodingFault) : String :=
  let position :=
    if fault.length = 1 then
      s!"byte 0x{String.ofList (Text.hexadecimal 2 fault.byte.toNat)} in position {fault.position}"
    else s!"bytes in position {fault.position}-{fault.position + fault.length - 1}"
  "'utf-8' codec can't decode " ++ position ++ ": " ++ fault.cause.message

def message : FileProblem → String
  | .opening error => error.message
  | .decoding fault => decodingMessage fault
  | .writing (.system message) => message
  | .writing (.encoding message) => message

end FileProblem

namespace Directory

/-- The text of a file, with every line break that involves a carriage return made a line feed. -/
def readText (directory : Directory) (path : String) : Except FileProblem String :=
  match directory.openForReading path with
  | .error failure => .error (.opening ⟨failure, path⟩)
  | .ok contents =>
      match Text.decodeUtf8 contents with
      | .error fault => .error (.decoding fault)
      | .ok text => .ok (String.ofList (Text.unifyBreaks text.toList))

def placeFor (directory : Directory) (path : String) : Except FileProblem Place :=
  match directory.openForWriting path with
  | .error failure => .error (.opening ⟨failure, path⟩)
  | .ok place => .ok place

def putText (directory : Directory) (place : Place) (text : String) : Directory :=
  directory.put place (.file (Text.encodeUtf8 text))

end Directory

end QueueMachine
