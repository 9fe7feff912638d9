import FrameAtlas.CommandLine.Export

namespace FrameAtlas.CommandLine

def FileFault.ofError : IO.Error → FileFault
  | .noFileOrDirectory _ _ _ => .notFound
  | .permissionDenied _ code details => ⟨details, code.toNat⟩
  | .inappropriateType _ code details => ⟨details, code.toNat⟩
  | .invalidArgument _ code details => ⟨details, code.toNat⟩
  | .resourceExhausted _ code details => ⟨details, code.toNat⟩
  | .otherError code details => ⟨details, code.toNat⟩
  | e => ⟨toString e, 5⟩

def readFile (path : String) : IO (Except FileFault ByteArray) := do
  match ← (IO.FS.readBinFile path).toBaseIO with
  | .ok data => return .ok data
  | .error e => return .error (FileFault.ofError e)

def writeFile (path content : String) : IO (Except FileFault Unit) := do
  match ← (IO.FS.writeFile path content).toBaseIO with
  | .ok _ => return .ok ()
  | .error e => return .error (FileFault.ofError e)

def fail (p : Problem) : IO UInt32 := do
  IO.eprintln p.report
  return p.exitCode.toUInt32

def exportDocument (i : Invocation) : IO UInt32 := do
  match i.exported (← readFile i.frames) with
  | .error f => fail (.failure f)
  | .ok (path, document) => match ← writeFile path document with
    | .error fault => fail (.failure (.unwritable path fault))
    | .ok _ => return 0

end FrameAtlas.CommandLine

def main (arguments : List String) : IO UInt32 :=
  match FrameAtlas.CommandLine.request arguments with
  | .error e => FrameAtlas.CommandLine.fail (.usage e)
  | .ok .version => do IO.print FrameAtlas.CommandLine.versionText; return 0
  | .ok .help => do IO.print FrameAtlas.CommandLine.helpText; return 0
  | .ok (.run i) => FrameAtlas.CommandLine.exportDocument i
