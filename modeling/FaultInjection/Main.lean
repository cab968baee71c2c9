import FaultInjection.CommandLine

/-!
The program `injector`.
-/

namespace FaultInjection

def processVariables : IO Variables := do
  let bytes ← try IO.FS.readBinFile "/proc/self/environ" catch _ => pure ByteArray.empty
  let entries := (bytes.toList.splitOn 0).filterMap fun entry => do
    let (name, value) ← Text.splitFirst '=' (← Text.decodeStrict? entry).toList
    some (String.ofList name, String.ofList value)
  return (Table.ofEntries entries).get?

def readFaultOf : IO.Error → ReadFault
  | .noFileOrDirectory _ _ _ => .missing
  | .inappropriateType _ code _ => if code = 21 then .isDirectory else .notDirectory
  | error => .other (toString error)

def readBytes (path : String) : IO (Except ReadFault (List UInt8)) := do
  try
    let bytes ← IO.FS.readBinFile path
    return .ok bytes.toList
  catch error => return .error (readFaultOf error)

/-- The nearest file of variables, in the directory of the process or in one that contains it. -/
def nearestEnvironmentFile : Nat → String → IO (Option (List UInt8))
  | 0, _ => return none
  | steps + 1, directory => do
      match ← readBytes (directory ++ ".env") with
      | .ok bytes => return some bytes
      | .error _ => nearestEnvironmentFile steps (directory ++ "../")

end FaultInjection

open FaultInjection

def main (arguments : List String) : IO UInt32 := do
  let environment ← processVariables
  let environmentFile ← nearestEnvironmentFile 64 ""
  let content ← match arguments with
    | _ :: path :: _ => readBytes path
    | _ => pure (.error .missing)
  let surroundings : Surroundings Http.Isolation :=
    ⟨environment, environmentFile, fun _ => content, ⟨⟩, 0, "node"⟩
  let transcript := surroundings.run arguments
  IO.print transcript.output
  IO.eprint transcript.errors
  return UInt32.ofNat transcript.code
