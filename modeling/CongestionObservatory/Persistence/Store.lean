import CongestionObservatory.Persistence.Snapshot

/-!
# `CongestionObservatory.Persistence.Store`: the snapshot files

`SnapshotStore` (`persistence/store.cpp`) keeps a primary and a fallback file. `save` keeps the
primary as the fallback, writes the new snapshot to a temporary file and moves that into place.
`load` tries the primary, then the fallback, and says in its notes why.

The file system is the contents of the three files. What the operating system answers to an
operation of `save` is a parameter: `Faults` says which one fails, and after how many bytes.
A crash is another matter, since it cuts the sequence of operations off. `FileStep` lists the
operations, and `Crash` relates the files before a save to the files a crash may leave: the steps
so far are done, and the file that was being copied or written has an arbitrary prefix.
-/

set_option autoImplicit false

namespace CongestionObservatory

open Lib

/-- `LoadOutcome`. -/
inductive LoadOutcome where
  | loadedPrimary
  | loadedFallback
  | loadedNothing
  deriving DecidableEq, Repr

/-- `LoadReport`. -/
structure LoadReport where
  outcome : LoadOutcome := .loadedNothing
  content : SnapshotContent := {}
  notes : List Text := []
  integrityFailure : Bool := false
  versionMismatch : Bool := false
  deriving DecidableEq

/-- `SaveReport`. -/
structure SaveReport where
  primaryPath : Text
  fallbackPath : Text
  bytesWritten : Nat
  crc64 : UInt64
  deriving DecidableEq

/-- The contents of the files, where they exist. -/
structure SnapshotFiles where
  primary : Option Text := none
  fallback : Option Text := none
  temporary : Option Text := none
  deriving DecidableEq

/-- Which operation of a save fails. A copy or a write fails after a number of bytes. -/
structure Faults where
  directory : Bool := false
  copy : Option Nat := none
  create : Bool := false
  write : Option Nat := none
  rename : Bool := false

/-- `join_path`, with `/` as the separator. -/
def joinPath (directory name : Text) : Text :=
  if directory = [] then name
  else if name.head? = some 0x2f then name
  else if directory.getLast? = some 0x2f then directory ++ name
  else directory ++ ascii "/" ++ name

/-- `SnapshotStore`. -/
structure SnapshotStore where
  directory : Text
  basename : Text
  limits : Limits

namespace SnapshotStore

def primaryPath (s : SnapshotStore) : Text :=
  joinPath s.directory (s.basename ++ ascii ".snapshot")

def fallbackPath (s : SnapshotStore) : Text :=
  joinPath s.directory (s.basename ++ ascii ".snapshot.previous")

/-- `read_file`. -/
def readFile (file : Option Text) (maxBytes : Nat) (path : Text) : Result Text :=
  match file with
  | none => .error (makeError .notFound "snapshot file is not readable" path)
  | some bytes =>
    if bytes.length > maxBytes then
      .error (makeError .limitExceeded "snapshot file exceeds the configured bound" path)
    else .ok bytes

/-- The step of `save` that keeps the previous snapshot as the fallback. -/
def retainPrevious (s : SnapshotStore) (faults : Faults) (files : SnapshotFiles) :
    Status × SnapshotFiles :=
  match files.primary with
  | none => (.ok (), files)
  | some bytes =>
    match faults.copy with
    | some n =>
      (.error (makeError .ioError "previous snapshot could not be retained as fallback"
        s.fallbackPath), { files with fallback := some (bytes.take n) })
    | none => (.ok (), { files with fallback := some bytes })

/-- `write_file_atomic`. -/
def writeFileAtomic (s : SnapshotStore) (faults : Faults) (bytes : Text) (files : SnapshotFiles) :
    Status × SnapshotFiles :=
  let temporary := s.primaryPath ++ ascii ".tmp"
  if faults.create then
    (.error (makeError .ioError "snapshot temporary file could not be created" temporary), files)
  else match faults.write with
  | some n =>
    (.error (makeError .ioError "snapshot write failed" temporary),
     { files with temporary := some (bytes.take n) })
  | none =>
    -- The primary is removed before the rename, and the temporary file after a failed one.
    if faults.rename then
      (.error (makeError .ioError "snapshot could not be moved into place" s.primaryPath),
       { files with primary := none, temporary := none })
    else (.ok (), { files with primary := some bytes, temporary := none })

/-- `SnapshotStore::save`. -/
def save (s : SnapshotStore) (faults : Faults) (content : SnapshotContent)
    (files : SnapshotFiles) : Result SaveReport × SnapshotFiles :=
  match encodeSnapshot content s.limits with
  | .error e => (.error e, files)
  | .ok bytes =>
    if s.directory ≠ [] ∧ faults.directory then
      (.error (makeError .ioError "state directory could not be created" s.directory), files)
    else match s.retainPrevious faults files with
    | (.error e, files) => (.error e, files)
    | (.ok (), files) =>
      match s.writeFileAtomic faults bytes files with
      | (.error e, files) => (.error e, files)
      | (.ok (), files) =>
        (.ok { primaryPath := s.primaryPath, fallbackPath := s.fallbackPath
               bytesWritten := bytes.length, crc64 := crc64 bytes }, files)

/-- The outcome of one of the two files: its content, or the note about it and whether the error
is one of integrity and of version. -/
def tryFile (s : SnapshotStore) (policy : ClassificationPolicy) (name : String)
    (file : Option Text) (path : Text) : Except (Text × Bool × Bool) SnapshotContent :=
  match file with
  | none => .error (ascii ("no " ++ name ++ " snapshot present"), false, false)
  | some _ =>
    match readFile file s.limits.maxSnapshotBytes path with
    | .error e => .error (ascii (name ++ " unreadable: ") ++ e.describe, true, false)
    | .ok bytes =>
      match decodeSnapshot bytes s.limits policy with
      | .error e => .error (ascii (name ++ " rejected: ") ++ e.describe,
          e.code = .integrityFailure, e.code = .versionMismatch)
      | .ok content => .ok content

/-- `SnapshotStore::load`. A fallback that is there but not usable always counts as an integrity
failure. -/
def load (s : SnapshotStore) (policy : ClassificationPolicy) (files : SnapshotFiles) :
    LoadReport :=
  match s.tryFile policy "primary" files.primary s.primaryPath with
  | .ok content => { outcome := .loadedPrimary, content := content }
  | .error (note, integrity, version) =>
    match s.tryFile policy "fallback" files.fallback s.fallbackPath with
    | .ok content =>
      { outcome := .loadedFallback, content := content
        notes := [note, ascii "fallback snapshot applied"]
        integrityFailure := integrity, versionMismatch := version }
    | .error (note', _, _) =>
      { outcome := .loadedNothing, notes := [note, note']
        integrityFailure := integrity || files.fallback.isSome, versionMismatch := version }

/-! ### Crashes -/

/-- A file operation of `save`. -/
inductive FileStep where
  | removeFallback
  | copyPrimaryToFallback
  | writeTemporary (bytes : Text)
  | removePrimary
  | renameTemporary

/-- The files after a step. -/
def FileStep.apply (files : SnapshotFiles) : FileStep → SnapshotFiles
  | .removeFallback => { files with fallback := none }
  | .copyPrimaryToFallback => { files with fallback := files.primary }
  | .writeTemporary bytes => { files with temporary := some bytes }
  | .removePrimary => { files with primary := none }
  | .renameTemporary => { files with primary := files.temporary, temporary := none }

/-- The steps of a save that writes the bytes. The fallback is rotated only when there is a
primary. -/
def rotationSteps (files : SnapshotFiles) (bytes : Text) : List FileStep :=
  (if files.primary.isSome then [.removeFallback, .copyPrimaryToFallback] else [])
    ++ [.writeTemporary bytes, .removePrimary, .renameTemporary]

/-- The steps of a save. A content that cannot be encoded touches no file. -/
def saveSteps (s : SnapshotStore) (content : SnapshotContent) (files : SnapshotFiles) :
    List FileStep :=
  match encodeSnapshot content s.limits with
  | .error _ => []
  | .ok bytes => rotationSteps files bytes

/-- The files a crash in the middle of a step may leave. -/
inductive Torn (files : SnapshotFiles) : FileStep → SnapshotFiles → Prop where
  | copy {bytes part : Text} (hprimary : files.primary = some bytes) (hpart : part <+: bytes) :
      Torn files .copyPrimaryToFallback { files with fallback := some part }
  | write {bytes part : Text} (hpart : part <+: bytes) :
      Torn files (.writeTemporary bytes) { files with temporary := some part }

/-- The files a crash during the steps may leave. A save that is not cut off at all is one of
the cases. -/
inductive Crash : SnapshotFiles → List FileStep → SnapshotFiles → Prop where
  | between (files : SnapshotFiles) (steps : List FileStep) : Crash files steps files
  | torn {files files' : SnapshotFiles} {step : FileStep} {rest : List FileStep}
      (h : Torn files step files') : Crash files (step :: rest) files'
  | later {files files' : SnapshotFiles} {step : FileStep} {rest : List FileStep}
      (h : Crash (step.apply files) rest files') : Crash files (step :: rest) files'

end SnapshotStore

end CongestionObservatory
