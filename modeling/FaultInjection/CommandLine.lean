import FaultInjection.EnvironmentFile
import FaultInjection.Failure.Definition
import FaultInjection.Http.Client
import FaultInjection.Node.Membership

/-!
The command line: what is asked for, what is printed, and what a program that cannot go on says
about it. Files and the network are handed in.
-/

namespace FaultInjection

inductive Command where
  | master
  | node
  | render (path : String)
  deriving DecidableEq, Repr

inductive ReadFault where
  | missing
  | notDirectory
  | isDirectory
  | notText
  | other (cause : String)
  deriving DecidableEq, Repr

def ReadFault.message : ReadFault → String
  | missing => "No such file or directory (os error 2)"
  | notDirectory => "Not a directory (os error 20)"
  | isDirectory => "Is a directory (os error 21)"
  | notText => "stream did not contain valid UTF-8"
  | other cause => cause

/-- What the program prints, and the complaint that ends it if there is one. -/
structure Transcript where
  output : String
  complaint : Option Complaint
  deriving DecidableEq, Repr

namespace Complaint

def ofError (error : Error) : Complaint := ⟨error.message, none⟩

/-- The message on the first line, and the cause further down, all of its lines indented. -/
def report (complaint : Complaint) : String :=
  match complaint.cause with
  | none => "Error: " ++ complaint.message
  | some cause =>
      let lines := Text.splitAll '\n' cause.toList
      let indented := lines.map fun line => "    " ++ String.ofList line
      "Error: " ++ complaint.message ++ "\n\nCaused by:\n" ++ "\n".intercalate indented

end Complaint

namespace Transcript

def fail (complaint : Complaint) : Transcript := ⟨"", some complaint⟩

def code (transcript : Transcript) : Nat := if transcript.complaint.isSome then 1 else 0

def errors (transcript : Transcript) : String :=
  match transcript.complaint with
  | some complaint => complaint.report ++ "\n"
  | none => ""

def ofResult (result : Except Complaint String) : Transcript :=
  match result with
  | .ok output => ⟨output, none⟩
  | .error complaint => fail complaint

end Transcript

namespace Command

def usage : Complaint := ⟨"usage: injector <master | node | render <file>>", none⟩

def ofArguments? : List String → Option Command
  | "master" :: _ => some master
  | "node" :: _ => some node
  | "render" :: path :: _ => some (render path)
  | _ => none

def rendered (path : String) (content : Except ReadFault (List UInt8)) :
    Except Complaint String := do
  let text := match content with
    | .error fault => Except.error fault
    | .ok bytes => match Text.decodeStrict? bytes with
      | some text => .ok text
      | none => .error .notText
  let parsed := match text with
    | .error fault => Except.error (Error.definition (.unreadable path fault.message))
    | .ok text => Specification.parseDefinition text
  match parsed with
  | .error error => .error ⟨"cannot load " ++ path, some error.message⟩
  | .ok specification => specification.renderDefinition.mapError .ofError

end Command

/-- The port behind the last colon of an address to listen at. -/
def listenPort (address : String) : Except Complaint Nat :=
  let chars := address.toList
  if !chars.contains ':' then .error ⟨"invalid socket address", none⟩
  else match parseCount (chars.reverse.takeWhile (· != ':')).reverse with
    | .ok port => if port < 65536 then .ok port else .error ⟨"invalid port value", none⟩
    | .error _ => .error ⟨"invalid port value", none⟩

structure Surroundings (σ : Type) where
  environment : Variables
  environmentFile : Option (List UInt8)
  read : (path : String) → Except ReadFault (List UInt8)
  network : σ
  instant : Int
  freshId : String

namespace Surroundings

variable {σ : Type}

def settings (surroundings : Surroundings σ) : Variables :=
  match surroundings.environmentFile with
  | some bytes => EnvironmentFile.load surroundings.environment bytes
  | none => surroundings.environment

/-- A master that nobody can reach does not start. -/
def startMaster (surroundings : Surroundings σ) : Except Complaint String := do
  let settings ← MasterSettings.ofVariables surroundings.settings
  let _ ← listenPort settings.listen
  .error ⟨s!"cannot listen at {settings.listen}: there is no network", none⟩

/-- A node that cannot join its master does not start. -/
def startNode [Http.Network σ] (surroundings : Surroundings σ) : Except Complaint String := do
  let settings ← NodeSettings.ofVariables surroundings.settings
  let membership :=
    Membership.ofNode (settings.node.getD surroundings.freshId) settings.labels
  let master := Remote.ofBase settings.masterUrl surroundings.network
  let joined := membership.register surroundings.instant master
  let _ ← joined.result.mapError Complaint.ofError
  .ok ""

def run [Http.Network σ] (surroundings : Surroundings σ) (arguments : List String) : Transcript :=
  match Command.ofArguments? arguments with
  | none => .fail Command.usage
  | some .master => .ofResult surroundings.startMaster
  | some .node => .ofResult surroundings.startNode
  | some (.render path) => .ofResult (Command.rendered path (surroundings.read path))

end Surroundings

end FaultInjection
