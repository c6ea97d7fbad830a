import TableStore.Engine

/-!
# Files and stores in folders

What a program that runs again and again finds around it: the files of a folder, the
folders in it, and the rows that stores keep in some of them.

A path is followed part by part from the folder that the program runs in, or from the
root (`FolderTree.follow`); every part but the last has to be a folder that is there.
Making a folder makes the missing ones above it first, from the top, and what was made
stays when a later one cannot be made (`FolderTree.makeAll`).

A store keeps two files and a folder of its own in its directory. Opening it makes the
folder, and by that the directory.
-/

namespace TableStore

/-- The parts of the way from the root to something. -/
abbrev Place := List String

/-- Files, folders and the rows kept in them. -/
structure FolderTree where
  files : SortedMap Place String := .empty
  folders : SortedMap Place Unit := .empty
  stores : SortedMap Place Rows := .empty

/-- What is at a place. -/
inductive Found where
  | file (text : String)
  | folder
  | nothing
  deriving DecidableEq, Repr

namespace FolderTree

/-- The folder that the program runs in, somewhere under the root. No path spells its
name, so none but a relative path leads into it. -/
def home : Place := ["tmp", "/"]

/-- The folders that are always there. -/
def standingFolders : List Place := [[], ["dev"], ["tmp"], home]

/-- The file that is always there, and always empty. -/
def emptyFile : Place := ["dev", "null"]

/-- The names of the files that a store keeps in its directory. -/
def storeFiles : List String := ["conf", "db"]

/-- What a store's own files begin with, as far as a reader of JSON gets. -/
def storeFileText : String := "segment_size: 524288\n"

/-- The name of the folder that a store keeps in its directory. -/
def storeFolder : String := "blobs"

/-- The name of the file that is written, and then renamed, when a store is opened
again. -/
def reopenedFile : String := "snap.0000000000000000.generating"

/-- Whether a place is that of a store's own file. -/
def isStoreFile (tree : FolderTree) (place : Place) : Bool :=
  place.getLast?.any storeFiles.contains && tree.stores.contains place.dropLast

def look (tree : FolderTree) (place : Place) : Found :=
  match tree.files.get? place with
  | some text => .file text
  | none =>
    if standingFolders.contains place || tree.folders.contains place then .folder
    else if place = emptyFile then .file ""
    else if tree.isStoreFile place then .file storeFileText
    else .nothing

/-! ## Following paths -/

/-- A path has fewer bytes than this. -/
def pathLimit : Nat := 4096

/-- A name has no more bytes than this. -/
def nameLimit : Nat := 255

/-- Where a path begins, and the parts to follow from there; a path that is too long or
holds the zero character leads nowhere. -/
def parts (path : String) : Except PathFailure (Place × List String) :=
  if path.toList.contains '\x00' then .error .zeroByte
  else if pathLimit ≤ path.utf8ByteSize then .error .nameTooLong
  else if path = "" then .error .noSuchFile
  else
    match path.splitOn "/" with
    | "" :: rest => .ok ([], rest)
    | all => .ok (home, all)

/-- One part of a path further, from a folder that is there. -/
def further (place : Place) (part : String) : Except PathFailure Place :=
  if nameLimit < part.utf8ByteSize then .error .nameTooLong
  else if part = "" || part = "." then .ok place
  else if part = ".." then .ok place.dropLast
  else .ok (place ++ [part])

/-- The place itself, if it is that of a folder. -/
def folderAt (tree : FolderTree) (place : Place) : Except PathFailure Place :=
  match tree.look place with
  | .file _ => .error .notDirectory
  | .nothing => .error .noSuchFile
  | .folder => .ok place

def follow (tree : FolderTree) (place : Place) (parts : List String) :
    Except PathFailure Place :=
  parts.foldlM (fun place part => (tree.folderAt place).bind (further · part)) place

/-- What is at the end of a path. -/
def find (tree : FolderTree) (path : String) : Except PathFailure Found :=
  match parts path with
  | .error e => .error e
  | .ok (start, parts) =>
    match tree.follow start parts with
    | .error e => .error e
    | .ok place =>
      match tree.look place with
      | .nothing => .error .noSuchFile
      | found => .ok found

/-- The text of the file at a path. -/
def read (tree : FolderTree) (path : String) : Except StorageFailure String :=
  match tree.find path with
  | .ok (.file text) => .ok text
  | .ok .folder => .error (.file .isDirectory)
  | .ok .nothing => .error (.file .noSuchFile)
  | .error e => .error (.file e)

/-- Put a file into the program's folder, or replace it. -/
def addFile (tree : FolderTree) (name text : String) : FolderTree :=
  { tree with files := tree.files.insert (home ++ [name]) text }

/-! ## Making folders -/

/-- Make one folder: the last of some parts, in the folder that the others lead to. -/
def make (tree : FolderTree) (start : Place) (above : List String) (part : String) :
    Except PathFailure FolderTree :=
  match (tree.follow start above).bind tree.folderAt with
  | .error e => .error e
  | .ok place =>
    if part = ".." then .error .alreadyThere
    else
      match further place part with
      | .error e => .error e
      | .ok place =>
        match tree.look place with
        | .nothing => .ok { tree with folders := tree.folders.insert place () }
        | _ => .error .alreadyThere

def leadsToFolder (tree : FolderTree) (start : Place) (parts : List String) : Bool :=
  ((tree.follow start parts).bind tree.folderAt).isOk

/-- How making a folder ended. That it was there already is no failure. -/
def settle (tree : FolderTree) (start : Place) (parts : List String) :
    Except PathFailure FolderTree → Except PathFailure Unit × FolderTree
  | .ok tree => (.ok (), tree)
  | .error e =>
    if e = .alreadyThere && tree.leadsToFolder start parts then (.ok (), tree)
    else (.error e, tree)

/-- Make the folder that parts lead to, given from the last to the first, and those
above it that are missing. -/
def makeAll (tree : FolderTree) (start : Place) :
    (upwards : List String) → Except PathFailure Unit × FolderTree
  | [] => (.ok (), tree)
  | part :: above =>
    let parts := (part :: above).reverse
    match tree.make start above.reverse part with
    | .error .noSuchFile =>
      match tree.makeAll start above with
      | (.error e, tree) => (.error e, tree)
      | (.ok (), tree) => tree.settle start parts (tree.make start above.reverse part)
    | result => tree.settle start parts result

/-- Make the folder at a path. Parts that lead nowhere are left out of it. -/
def makeFolder (tree : FolderTree) (path : String) : Except PathFailure Unit × FolderTree :=
  match parts path with
  | .error e => (.error e, tree)
  | .ok (start, parts) =>
    tree.makeAll start (parts.filter (fun part => part ≠ "" && part ≠ ".")).reverse

/-! ## Stores -/

/-- The path of something in the folder at a path. The empty path is that of the folder
that the program runs in. -/
def within (path name : String) : String :=
  if path = "" || path.endsWith "/" then path ++ name else path ++ "/" ++ name

/-- The place of the store in the folder at a path, once its own folder is there. -/
def storePlace (tree : FolderTree) (path : String) : Except PathFailure Place :=
  match parts (within path storeFolder) with
  | .error e => .error e
  | .ok (start, parts) =>
    match tree.follow start parts.dropLast with
    | .error e => .error e
    | .ok place =>
      if storeFiles.any (fun name => tree.look (place ++ [name]) = .folder) then
        .error .isDirectory
      else .ok place

/-- The store in the folder at a path: its place and the rows kept there. What is
missing is made. The path of a store that was there before has to leave room for one
more name. -/
def openStore (tree : FolderTree) (path : String) :
    Except PathFailure (Place × Rows) × FolderTree :=
  let own := within path storeFolder
  let (made, tree) :=
    if (tree.find own).isOk then (.ok (), tree) else tree.makeFolder own
  match made.bind (fun _ => tree.storePlace path) with
  | .error e => (.error e, tree)
  | .ok place =>
    match tree.stores.get? place with
    | none => (.ok (place, .empty), { tree with stores := tree.stores.insert place .empty })
    | some rows => ((parts (within path reopenedFile)).map (fun _ => (place, rows)), tree)

def rowsAt (tree : FolderTree) (path : String) : Except StorageFailure Rows :=
  match (tree.openStore path).1 with
  | .ok (_, rows) => .ok rows
  | .error e => .error (.directory e)

/-- Keep rows in the folder at a path; without rows, what opening it makes is left. -/
def keep (tree : FolderTree) (path : String) (rows : Option Rows) : FolderTree :=
  match tree.openStore path, rows with
  | (.ok (place, _), tree), some rows => { tree with stores := tree.stores.insert place rows }
  | (_, tree), _ => tree

end FolderTree

end TableStore
