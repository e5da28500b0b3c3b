import Quiesce.Basic
import Quiesce.Config.Contents
import Quiesce.Text.Basic

set_option autoImplicit false

/-! A text states a configuration, and a file may hold a text. Files stand below one outer directory
and are known by the names on their way; of what lies outside, only the directories on the way up
are known. -/

namespace Quiesce.Config

inductive Malformed where
  | unwritten
  | unfit (fault : Fault)
deriving DecidableEq, Repr

inductive Unreadable where
  | missing
  | notADirectory
  | isADirectory
  | nameTooLong
  | nulInPath
  | notText
deriving DecidableEq, Repr

namespace Unreadable

def message : Unreadable → String
  | missing => "No such file or directory (os error 2)"
  | notADirectory => "Not a directory (os error 20)"
  | isADirectory => "Is a directory (os error 21)"
  | nameTooLong => "File name too long (os error 36)"
  | nulInPath => "file name contained an unexpected NUL byte"
  | notText => "stream did not contain valid UTF-8"

end Unreadable

inductive Error where
  | read (path : String) (why : Unreadable)
  | parse (path : Option String) (why : Malformed)
  | invalid (why : Violation)
deriving DecidableEq, Repr

namespace Error

def path? : Error → Option String
  | read path _ => some path
  | parse path _ => path
  | invalid _ => none

def readMessage (path : String) (why : Unreadable) : String :=
  "failed to read " ++ path ++ ": " ++ why.message

def invalidMessage (why : Violation) : String := "invalid runtime config: " ++ why.rule

end Error

/-- The configuration that a document states; `path` is the file it came from. -/
def ofDocument (path : Option String) (d : Toml.Document) : Except Error Config := do
  let stated ← (Stated.ofDocument d).mapError fun fault => .parse path (.unfit fault)
  (ofStated stated).mapError .invalid

section

variable {path : Option String} {d : Toml.Document}

theorem ofDocument_of_error {fault : Fault} (h : Stated.ofDocument d = .error fault) :
    ofDocument path d = .error (.parse path (.unfit fault)) := by
  rw [ofDocument, h]
  rfl

theorem ofDocument_of_ok {stated : Stated} (h : Stated.ofDocument d = .ok stated) :
    ofDocument path d = (ofStated stated).mapError .invalid := by
  rw [ofDocument, h]
  rfl

end

def ofTextIn (path : Option String) (text : String) : Except Error Config :=
  match Toml.Document.read? text with
  | some d => ofDocument path d
  | none => .error (.parse path .unwritten)

def ofText (text : String) : Except Error Config := ofTextIn none text

theorem ofText_of_read {text : String} {d : Toml.Document}
    (h : Toml.Document.read? text = some d) : ofText text = ofDocument none d := by
  rw [ofText, ofTextIn, h]

theorem ofText_of_unread {text : String} (h : Toml.Document.read? text = none) :
    ofText text = .error (.parse none .unwritten) := by
  rw [ofText, ofTextIn, h]

inductive Item where
  | file (bytes : ByteArray)
  | directory

structure Files where
  items : List (List String × Item)
  /-- How many bytes the path of the outer directory takes, with a slash after it. -/
  outerLength : Nat

inductive Place where
  | inside (way : List String)
  | outside

namespace Files

def empty (outerLength : Nat) : Files := ⟨[], outerLength⟩

def names (path : String) : List String :=
  (Text.Join.split '/' path.toList).map String.ofList

/-- One name further on a way from the outer directory, which it does not leave. -/
def further (way : List String) (name : String) : List String :=
  if name = "" ∨ name = "." then way
  else if name = ".." then way.dropLast
  else way ++ [name]

def ways : List String → List String → List (List String)
  | _, [] => []
  | way, name :: rest => further way name :: ways (further way name) rest

/-- Adds an item, in the place of an earlier one; the directories that its path leads through come
with it, also those that the path leaves again. -/
def add (f : Files) (path : String) (item : Item) : Files :=
  let passed := ways [] (names path)
  { f with items :=
      (passed.getLastD [], item) :: passed.dropLast.map (·, .directory) ++ f.items }

def find? (f : Files) (way : List String) : Option Item :=
  if way.isEmpty then some .directory else f.items.lookup way

def itemAt (f : Files) : Place → Option Item
  | .inside way => f.find? way
  | .outside => some .directory

def maxName : Nat := 255

def step (f : Files) (place : Place) (name : String) : Except Unreadable Place :=
  if name = "" ∨ name = "." then .ok place
  else match place with
    | .outside =>
      if name = ".." then .ok .outside
      else .error (if maxName < name.utf8ByteSize then .nameTooLong else .missing)
    | .inside way =>
      if name = ".." then .ok (if way.isEmpty then .outside else .inside way.dropLast)
      else if maxName < name.utf8ByteSize then .error .nameTooLong
      else if (f.find? (way ++ [name])).isSome then .ok (.inside (way ++ [name]))
      else .error .missing

def walk (f : Files) : Place → List String → Except Unreadable Item
  | place, [] =>
    match f.itemAt place with
    | some item => .ok item
    | none => .error .missing
  | place, name :: rest =>
    match f.itemAt place with
    | some .directory => do
      let next ← f.step place name
      walk f next rest
    | some (.file _) => .error .notADirectory
    | none => .error .missing

def start (path : String) : Place :=
  if path.toList.head? = some '/' then .outside else .inside []

def maxPath : Nat := 4095

def wholeLength (f : Files) (path : String) : Nat :=
  match start path with
  | .outside => path.utf8ByteSize
  | .inside _ => f.outerLength + path.utf8ByteSize

def bytes (f : Files) (path : String) : Except Unreadable ByteArray :=
  if path.toList.contains '\x00' then .error .nulInPath
  else if maxPath < f.wholeLength path then .error .nameTooLong
  else do
    match ← f.walk (start path) (names path) with
    | .file b => .ok b
    | .directory => .error .isADirectory

def text (f : Files) (path : String) : Except Unreadable String := do
  match String.fromUTF8? (← f.bytes path) with
  | some s => .ok s
  | none => .error .notText

end Files

inductive Notice where
  | loaded (path : String) (config : Config)
deriving DecidableEq, Repr

instance : Loggable Notice where
  entry
    | .loaded path config =>
      ⟨.debug, "Loaded runtime config", [("path", path), ("config", config.text)]⟩

structure Loading where
  result : Except Error Config
  notices : List Notice

def load (f : Files) (path : String) : Loading :=
  match f.text path with
  | .error why => ⟨.error (.read path why), []⟩
  | .ok text =>
    match ofTextIn (some path) text with
    | .error e => ⟨.error e, []⟩
    | .ok config => ⟨.ok config, [.loaded path config]⟩

end Quiesce.Config
