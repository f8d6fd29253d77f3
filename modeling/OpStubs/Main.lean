import OpStubs.Command.Run

namespace OpStubs

/-- What an error of the system means. Its code may be negated. -/
def fileError : IO.Error → FileError
  | .noFileOrDirectory .. => .missing
  | .alreadyExists .. => .exists
  | .inappropriateType _ code _ => if code = 20 ∨ code = -20 then .notFolder else .isFolder
  | e => .other (toString e)

def attempt {α : Type} (x : IO α) : IO (Except FileError α) := do
  return (← x.toBaseIO).mapError fileError

/-- Whether what is known of something says that it has a type. -/
def hasType (data : IO IO.FS.Metadata) (type : IO.FS.FileType) : IO Bool := do
  match ← data.toBaseIO with
  | .ok data => return data.type == type
  | .error _ => return false

instance : Files IO where
  read path := attempt (IO.FS.readBinFile path)
  isFile path := hasType (System.mkFilePath [path]).metadata .file
  isFolder path := hasType (System.mkFilePath [path]).metadata .dir
  list path := attempt do
    let entries ← (System.mkFilePath [path]).readDir
    -- A link in a folder is no file of it, whatever it leads to.
    let files ← entries.filterM fun e => hasType e.path.symlinkMetadata .file
    return (files.map (·.fileName)).toList
  makeFolder path := attempt (if path = "" then pure () else IO.FS.createDirAll path)
  write path content := attempt (IO.FS.writeBinFile path content)

end OpStubs

def main (args : List String) : IO UInt32 := do
  let report : OpStubs.Command.Report ← OpStubs.Command.run args
  (← IO.getStdout).putStr report.stdout
  (← IO.getStderr).putStr report.stderr
  return UInt32.ofNat report.status
