import MissionControl.Environment
import MissionControl.Library.FileSystem
import MissionControl.Tasks

/-!
# The memory browser

The requests that list, search, read, write, create and delete the files below
the memory directory. A request that names a path is checked first, by
`resolveSafeMemoryPath`; the tree and the search start at the directory itself
and skip the links they meet. Both are one walk, with what is done to a file as
its parameter.

What a request does is its answer, and the files it accesses, by their physical
paths. Looking a path up is no access.
-/

namespace MissionControl

/-- What a file holds: the text it is read as, and its size in octets. -/
structure FileContent where
  text : String
  size : ℕ

/-- **What the memory browser runs with**: the runtime, the file system, the
working directory and `MEMORY_PATH`. -/
structure MemorySite where
  rt : Runtime
  fs : FileSystem FileContent
  cwd : List FileName
  base : List Char
  /-- The size that `stat` gives of anything but a file. -/
  otherSize : List FileName → ℕ
  /-- `a.localeCompare(b) <= 0`. -/
  localeLe : List Char → List Char → Bool
  /-- Whether `Buffer.from` takes a value. -/
  isChunk : Json → Bool

/-- **What a request does to a file**, or to a directory it lists. -/
inductive FileAccess where
  | list (p : List FileName)
  | stat (p : List FileName)
  | read (p : List FileName)
  | write (p : List FileName)
  | create (p : List FileName)
  | delete (p : List FileName)
  deriving DecidableEq

def FileAccess.path : FileAccess → List FileName
  | list p => p
  | stat p => p
  | read p => p
  | write p => p
  | create p => p
  | delete p => p

/-- What a request does: its accesses in order, and its answer. -/
structure MemoryReply where
  accesses : List FileAccess
  response : ApiResponse

def MemoryReply.refuse (status : ℕ) (message : String) : MemoryReply :=
  ⟨[], .error status message⟩

namespace MemorySite

variable (site : MemorySite)

/-! ## Paths -/

def locate (follow : Bool) (path : List Char) : Located :=
  site.fs.locate site.cwd follow path

def cwdText : List Char := Posix.absolute site.cwd

end MemorySite

def PathError.code : PathError → String
  | .noEntry => "ENOENT"
  | .notDirectory => "ENOTDIR"
  | .tooManyLinks => "ELOOP"
  | .invalid => "ERR_INVALID_ARG_VALUE"

/-- `realpath`, as a text. -/
def MemorySite.realpath (site : MemorySite) (path : List Char) :
    Except PathError (List Char) :=
  (site.fs.realpath site.cwd path).map Posix.absolute

def resolveWithin (cwd baseDir relativePath : List Char) : Except Exception (List Char) :=
  let base := Posix.resolveFrom cwd [baseDir]
  let resolved := Posix.resolveFrom cwd [base, relativePath]
  if ¬ (base ++ ['/']) <+: resolved ∧ resolved ≠ base then
    .error (.error "Path escapes base directory")
  else .ok resolved

def isWithinBase (base candidate : List Char) : Bool :=
  candidate = base ∨ (base ++ ['/']) <+: candidate

/-- The check of the file itself, where it is there: it is no link, and lies
within the base. -/
def checkTarget (site : MemorySite) (baseReal fullPath : List Char) :
    Except Exception (List Char) :=
  match site.locate false fullPath with
  | .missing _ => .ok fullPath
  | .failed .noEntry => .ok fullPath
  | .failed e => .error (.error (PathError.code e))
  | .found p =>
    match site.fs.node p with
    | some (.link _) => .error (.error "Symbolic links are not allowed")
    | _ =>
      match site.realpath fullPath with
      | .error .noEntry => .ok fullPath
      | .error e => .error (.error (PathError.code e))
      | .ok fileReal =>
        if isWithinBase baseReal fileReal then .ok fullPath
        else .error (.error "Path escapes base directory (symlink)")

/-- **`resolveSafeMemoryPath`.** -/
def resolveSafeMemoryPath (site : MemorySite) (baseDir relativePath : List Char) :
    Except Exception (List Char) :=
  match site.realpath baseDir with
  | .error e => .error (.error (PathError.code e))
  | .ok baseReal =>
    match resolveWithin site.cwdText baseDir relativePath with
    | .error e => .error e
    | .ok fullPath =>
      match site.realpath (Posix.dirname fullPath) with
      | .error .noEntry => .error (.error "Parent directory not found")
      | .error e => .error (.error (PathError.code e))
      | .ok parentReal =>
        if isWithinBase baseReal parentReal then checkTarget site baseReal fullPath
        else .error (.error "Path escapes base directory (symlink)")

/-! ## Files -/

/-- `stat`: what a path leads to. -/
def MemorySite.stat (site : MemorySite) (path : List Char) : Option (List FileName) :=
  match site.locate true path with
  | .found p => some p
  | _ => none

/-- The size of what is stored under a physical path. -/
def MemorySite.size (site : MemorySite) (p : List FileName) : ℕ :=
  match site.fs.node p with
  | some (.file content) => content.size
  | _ => site.otherSize p

/-- `readdir`: the directory that a path leads to. -/
def MemorySite.readdir (site : MemorySite) (path : List Char) : Option (List FileName) :=
  (site.stat path).filter (fun p => site.fs.IsDirectory p)

/-- `readFile`: the accesses, and the text. A directory cannot be read, and what
is no file gives no text. -/
def MemorySite.readFile (site : MemorySite) (path : List Char) :
    List FileAccess × Option String :=
  match site.stat path with
  | none => ([], none)
  | some p =>
    match site.fs.node p with
    | some (.file content) => ([.read p], some content.text)
    | some .special => ([.read p], none)
    | _ => ([], none)

/-- `writeFile`: the accesses, and whether it succeeds. A text is written at
once, an array chunk by chunk; the file is there then, even if a chunk is
refused. -/
def MemorySite.writeFile (site : MemorySite) (path : List Char) (content : Json) :
    List FileAccess × Bool :=
  let chunks : Option (List Json) := match content with
    | .str s => some [.str s]
    | .arr elements => some elements
    | _ => none
  match chunks with
  | none => ([], false)
  | some chunks =>
    match site.locate true path with
    | .failed _ => ([], false)
    | .missing p => ([.create p], chunks.all site.isChunk)
    | .found p =>
      if site.fs.IsDirectory p then ([], false)
      else ([.write p], chunks.all site.isChunk)

/-- `mkdir` with `recursive`, where the directory above is there. -/
def MemorySite.mkdir (site : MemorySite) (path : List Char) : List FileAccess :=
  match site.locate true path with
  | .missing p => [.create p]
  | _ => []

/-- `unlink`: the accesses, and whether it succeeds. -/
def MemorySite.unlink (site : MemorySite) (path : List Char) : List FileAccess × Bool :=
  match site.locate false path with
  | .found p => if site.fs.IsDirectory p then ([], false) else ([.delete p], true)
  | _ => ([], false)

/-! ## Walks through directories -/

/-- An entry of a directory: its name, its path, and its path below the base. -/
structure DirectoryItem where
  name : FileName
  path : List Char
  relativePath : List Char

/-- What a walk does to an entry: its accesses, whether it goes on below it, and
its results, with those from below. -/
structure ItemVisit (β : Type) where
  accesses : List FileAccess
  enter : Bool
  results : List β → List β

def ItemVisit.skip {β : Type} : ItemVisit β := ⟨[], false, fun _ => []⟩

def DirectoryItem.entry (dirPath relativePath : List Char) (n : FileName) : DirectoryItem :=
  ⟨n, Posix.join [dirPath, n], Posix.join [relativePath, n]⟩

/-- What a walk does with an entry, and `below` it. Links are skipped. -/
def walkEntry {β : Type} (visit : FileNode FileContent → DirectoryItem → ItemVisit β)
    (below : DirectoryItem → List FileAccess × List β)
    (node : Option (FileNode FileContent)) (item : DirectoryItem) :
    List FileAccess × List β :=
  match node with
  | none => ([], [])
  | some (.link _) => ([], [])
  | some node =>
    let v := visit node item
    let inner := if v.enter then below item else ([], [])
    (v.accesses ++ inner.1, v.results inner.2)

/-- **The walk through a directory** and those below it. `fuel` is how deep it may
go. -/
def walkDirectory {β : Type} (site : MemorySite)
    (visit : FileNode FileContent → DirectoryItem → ItemVisit β)
    (finish : List β → List β) : ℕ → List Char → List Char → List FileAccess × List β
  | 0, _, _ => ([], [])
  | fuel + 1, dirPath, relativePath =>
    match site.readdir dirPath with
    | none => ([], [])
    | some dir =>
      let visited := (site.fs.names dir).map fun n =>
        walkEntry visit
          (fun item => walkDirectory site visit finish fuel item.path item.relativePath)
          (site.fs.node (dir ++ [n])) (.entry dirPath relativePath n)
      (.list dir :: visited.flatMap Prod.fst, finish (visited.flatMap Prod.snd))

/-- How deep a walk may go: the base may lead anywhere, and what its entries lead
to may, too. -/
def MemorySite.fuel (site : MemorySite) : ℕ := site.fs.depth + 2

inductive MemoryFile where
  | file (path name : List Char) (size : ℕ)
  | directory (path name : List Char) (children : List MemoryFile)

namespace MemoryFile

/-- The name of a file or a directory. -/
def name : MemoryFile → List Char
  | file _ name _ => name
  | directory _ name _ => name

def isDirectory : MemoryFile → Bool
  | file _ _ _ => false
  | directory _ _ _ => true

/-- The order of a tree: directories first, and by name. -/
def le (localeLe : List Char → List Char → Bool) (a b : MemoryFile) : Bool :=
  if a.isDirectory ≠ b.isDirectory then a.isDirectory else localeLe a.name b.name

def json : MemoryFile → Json
  | file path name size => .obj [("path", .str (String.ofList path)),
      ("name", .str (String.ofList name)), ("type", .str "file"), ("size", .ofNat size)]
  | directory path name children => .obj [("path", .str (String.ofList path)),
      ("name", .str (String.ofList name)), ("type", .str "directory"),
      ("children", .arr (childrenJson children))]
where
  childrenJson : List MemoryFile → List Json
    | [] => []
    | f :: fs => f.json :: childrenJson fs

end MemoryFile

/-- What `buildFileTree` does to an entry. -/
def treeVisit (site : MemorySite) (node : FileNode FileContent) (item : DirectoryItem) :
    ItemVisit MemoryFile :=
  match site.stat item.path with
  | none => .skip
  | some p =>
    match node with
    | .directory => ⟨[.stat p], true, fun children =>
        [.directory item.relativePath item.name children]⟩
    | .file _ => ⟨[.stat p], false, fun _ =>
        [.file item.relativePath item.name (site.size p)]⟩
    | _ => ⟨[.stat p], false, fun _ => []⟩

/-- **`buildFileTree`.** -/
def buildFileTree (site : MemorySite) (fuel : ℕ) (dirPath relativePath : List Char) :
    List FileAccess × List MemoryFile :=
  walkDirectory site (treeVisit site)
    (fun files => files.mergeSort (MemoryFile.le site.localeLe)) fuel dirPath relativePath

/-- How often a text stands in another one, from left to right. -/
def countMatches (needle : List Char) : ℕ → List Char → ℕ
  | _, [] => 0
  | skip + 1, _ :: s => countMatches needle skip s
  | 0, c :: s =>
    if needle <+: c :: s then 1 + countMatches needle (needle.length - 1) s
    else countMatches needle 0 s

/-- A file that is found, and how often. -/
structure SearchResult where
  path : List Char
  count : ℕ

def searchInFile (site : MemorySite) (query : String) (item : DirectoryItem) :
    List FileAccess × List SearchResult :=
  match site.stat item.path with
  | none => ([], [])
  | some p =>
    if 1000000 < site.size p then ([.stat p], [])
    else
      let (accesses, content) := site.readFile item.path
      let needle := (site.rt.toLowerCase query).toList
      let found := match content with
        | none => 0
        | some text =>
          if needle = [] then 0
          else countMatches needle 0 (site.rt.toLowerCase text).toList
      (.stat p :: accesses, if 0 < found then [⟨item.relativePath, found⟩] else [])

/-- Whether a file of a name is searched. -/
def isSearched (name : FileName) : Bool :=
  ".md".toList <:+ name ∨ ".txt".toList <:+ name

/-- What `searchDirectory` does to an entry. -/
def searchVisit (site : MemorySite) (query : String) (node : FileNode FileContent)
    (item : DirectoryItem) : ItemVisit SearchResult :=
  match node with
  | .directory => ⟨[], true, id⟩
  | .file _ =>
    if isSearched item.name then
      let (accesses, results) := searchInFile site query item
      ⟨accesses, false, fun _ => results⟩
    else .skip
  | _ => .skip

/-- **`searchDirectory`.** -/
def searchDirectory (site : MemorySite) (query : String) (fuel : ℕ)
    (dirPath relativePath : List Char) : List FileAccess × List SearchResult :=
  walkDirectory site (searchVisit site query) id fuel dirPath relativePath

def SearchResult.json (r : SearchResult) : Json :=
  .obj [("path", .str (String.ofList r.path)),
    ("name", .str (String.ofList (((r.path.splitOn '/').getLast?).getD []))),
    ("matches", .ofNat r.count)]

/-! ## Requests -/

def fileContent (site : MemorySite) (path : String) : MemoryReply :=
  match resolveSafeMemoryPath site site.base path.toList with
  | .error _ => .refuse 500 "Internal server error"
  | .ok fullPath =>
    match site.readFile fullPath with
    | (accesses, none) => ⟨accesses, .error 404 "File not found"⟩
    | (accesses, some content) =>
      match site.stat fullPath with
      | none => ⟨accesses, .error 404 "File not found"⟩
      | some p => ⟨accesses ++ [.stat p], .json 200 (.obj [("content", .str content),
          ("size", .ofNat (site.size p)), ("path", .str path)])⟩

/-- **`GET /api/memory`.** -/
def getMemory (site : MemorySite) (path action query : Option String) : MemoryReply :=
  if action = some "tree" then
    if site.base = [] then ⟨[], .json 200 (.obj [("tree", .arr [])])⟩
    else
      let (accesses, tree) := buildFileTree site site.fuel site.base []
      ⟨accesses, .json 200 (.obj [("tree", .arr (tree.map MemoryFile.json))])⟩
  else if action = some "content" ∧ path.getD "" ≠ "" then
    if site.base = [] then .refuse 500 "Memory directory not configured"
    else fileContent site (path.getD "")
  else if action = some "search" then
    let query := query.getD ""
    if query = "" then .refuse 400 "Query required"
    else if site.base = [] then
      ⟨[], .json 200 (.obj [("query", .str query), ("results", .arr [])])⟩
    else
      let (accesses, results) := searchDirectory site query site.fuel site.base []
      ⟨accesses, .json 200 (.obj [("query", .str query),
        ("results", .arr ((results.mergeSort fun a b => b.count ≤ a.count).map
          SearchResult.json))])⟩
  else .refuse 400 "Invalid action"

/-- The path that a body names, safely resolved, or the answer that refuses it. -/
def readMemoryPath (site : MemorySite) (body : Option Json) :
    Except MemoryReply (List Char) :=
  match Json.get body "path" with
  | .error _ => .error (.refuse 500 "Internal server error")
  | .ok path =>
    if ¬ Json.truthy path then .error (.refuse 400 "Path is required")
    else if site.base = [] then .error (.refuse 500 "Memory directory not configured")
    else
      match path with
      | some (.str text) =>
        match resolveSafeMemoryPath site site.base text.toList with
        | .error _ => .error (.refuse 500 "Internal server error")
        | .ok fullPath => .ok fullPath
      | _ => .error (.refuse 500 "Internal server error")

def writeReply (before : List FileAccess) (written : List FileAccess × Bool)
    (message : String) : MemoryReply :=
  ⟨before ++ written.1,
    if written.2 then
      .json 200 (.obj [("success", .bool true), ("message", .str message)])
    else .error 500 "Internal server error"⟩

/-- A file is created, unless it is there. -/
def createFile (site : MemorySite) (fullPath : List Char) (content : Option Json) :
    MemoryReply :=
  let made := site.mkdir (Posix.dirname fullPath)
  match site.stat fullPath with
  | some p => ⟨made ++ [.stat p], .error 409 "File already exists"⟩
  | none =>
    writeReply made (site.writeFile fullPath (Json.or content (.str "")))
      "File created successfully"

/-- **`POST /api/memory`.** -/
def postMemory (site : MemorySite) (body : Option Json) : MemoryReply :=
  match readMemoryPath site body with
  | .error reply => reply
  | .ok fullPath =>
    let action := Json.get? body "action"
    if Json.equalsText action "save" then
      match Json.get? body "content" with
      | none => .refuse 400 "Content is required for save action"
      | some content =>
        writeReply [] (site.writeFile fullPath content) "File saved successfully"
    else if Json.equalsText action "create" then
      createFile site fullPath (Json.get? body "content")
    else .refuse 400 "Invalid action"

/-- **`DELETE /api/memory`.** -/
def deleteMemory (site : MemorySite) (body : Option Json) : MemoryReply :=
  match readMemoryPath site body with
  | .error reply => reply
  | .ok fullPath =>
    if Json.equalsText (Json.get? body "action") "delete" then
      match site.stat fullPath with
      | none => .refuse 404 "File not found"
      | some p => writeReply [.stat p] (site.unlink fullPath) "File deleted successfully"
    else .refuse 400 "Invalid action"

inductive MemoryRequest where
  | get (path action query : Option String)
  | post (body : Option Json)
  | delete (body : Option Json)

/-- **What a request does.** -/
def memoryReply (site : MemorySite) : MemoryRequest → MemoryReply
  | .get path action query => getMemory site path action query
  | .post body => postMemory site body
  | .delete body => deleteMemory site body

end MissionControl
