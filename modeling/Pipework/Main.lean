import Pipework.Command.Run
import Std.Time.DateTime.Timestamp

/-!
# The program

The machine on which the program runs, and its command line.
-/

namespace Pipework.Disk

/-- The fault with a number of the system, which some operations negate. -/
def Fault.ofCode (number : UInt32) (text : String) : Fault :=
  let code := if number < 0x80000000 then number else 0 - number
  match code with
  | 2 => .missing
  | 17 => .taken
  | 20 => .notFolder
  | 21 => .folder
  | 36 => .nameTooLong
  | _ => .other s!"{text} (os error {code})"

/-- The fault that an operation of the system reports. -/
def Fault.ofError : IO.Error → Fault
  | .noFileOrDirectory _ code text | .interrupted _ code text => .ofCode code text
  | .alreadyExists _ code text | .invalidArgument _ code text | .permissionDenied _ code text
  | .resourceExhausted _ code text | .inappropriateType _ code text
  | .noSuchThing _ code text => .ofCode code text
  | .otherError code text | .resourceBusy code text | .resourceVanished code text
  | .unsupportedOperation code text | .hardwareFault code text
  | .unsatisfiedConstraints code text | .illegalOperation code text | .protocolError code text
  | .timeExpired code text => .ofCode code text
  | .unexpectedEof => .other "unexpected end of file"
  | .userError text => .other text

/-- Do something that the system may refuse. -/
def tryOn {α : Type} (op : IO α) : IO (Except Fault α) := do
  try return .ok (← op) catch e => return .error (.ofError e)

/-- Bytes as text. -/
def textOf (content : ByteArray) : Except Fault String :=
  match String.fromUTF8? content with
  | some text => .ok text
  | none => .error .notText

instance : Host IO where
  read path := return (← tryOn (IO.FS.readBinFile path)).bind textOf
  write path text := tryOn (IO.FS.writeFile path text)
  makeFolder path := tryOn (IO.FS.createDir path)
  remove path := tryOn (IO.FS.removeFile path)
  list path := tryOn do
    let entries ← (← IO.FS.realPath path).readDir
    return entries.toList.map (·.fileName)
  isThere path := return (← tryOn (IO.FS.realPath path)).isOk
  isFolder path := do
    match ← tryOn (IO.FS.realPath path) with
    | .ok real => real.isDir
    | .error _ => return false
  now := do
    let t := (← Std.Time.Timestamp.now).toNanosecondsSinceUnixEpoch.val
    return ⟨t / 1000000000, (t % 1000000000).toNat⟩
  input := return (← tryOn do (← IO.getStdin).readBinToEnd).bind textOf

end Pipework.Disk

namespace Pipework.Command

/-- The folder where programs keep data. -/
def dataFolder? : IO (Option String) := do
  match ← IO.getEnv "XDG_DATA_HOME" with
  | some folder => if Disk.isAbsolute folder then return some folder else atHome
  | none => atHome
where
  atHome : IO (Option String) := do
    let home := (← IO.getEnv "HOME").filter (!·.isEmpty)
    return home.map fun folder => Disk.join folder ".local/share"

/-- What the environment of the program says. -/
def Environment.current : IO Environment := do
  return { storeFolder := ← IO.getEnv "CIGEN_STORE_DIR"
           logFormat := ← IO.getEnv "CIGEN_LOG_FORMAT"
           dataFolder := ← dataFolder? }

end Pipework.Command

/-- Read pipelines, write them for a platform, lint what platforms read, and keep configurations. -/
def main (args : List String) : IO UInt32 := do
  let output ← (Pipework.Command.respond (← Pipework.Command.Environment.current) args : IO _)
  IO.print output.stdout
  IO.eprint output.stderr
  return UInt32.ofNat output.exitCode
