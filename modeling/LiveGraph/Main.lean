import LiveGraph.CommandLine.Answer

/-!
# The command line

* `main`: the arguments are answered, with files and the standard input read as they are asked for.
-/

namespace LiveGraph

/-- Why the system did not open or read something. -/
def Obstacle.ofError : IO.Error → Obstacle
  | .noFileOrDirectory _ n text => ⟨text, n.toNat⟩
  | .permissionDenied _ n text | .inappropriateType _ n text | .invalidArgument _ n text
  | .resourceExhausted _ n text | .noSuchThing _ n text | .alreadyExists _ n text => ⟨text, n.toNat⟩
  | .hardwareFault n text | .otherError n text | .illegalOperation n text
  | .unsatisfiedConstraints n text | .resourceBusy n text | .unsupportedOperation n text =>
    ⟨text, n.toNat⟩
  | _ => ⟨"Input/output error", 5⟩

def readAll (open_ : IO IO.FS.Handle) : IO Source := do
  match ← open_.toBaseIO with
  | .error e => return .unopened (.ofError e)
  | .ok h => match ← h.readBinToEnd.toBaseIO with
    | .error e => return .unread (.ofError e)
    | .ok bytes => return .octets bytes.toList

def readSource : Option String → IO Source
  | some path => readAll (IO.FS.Handle.mk path .read)
  | none => do
    let input ← IO.getStdin
    let mut bytes := ByteArray.empty
    repeat
      let more ← input.read 65536
      if more.isEmpty then break
      bytes := bytes ++ more
    return .octets bytes.toList

end LiveGraph

def main (args : List String) : IO UInt32 := do
  match LiveGraph.Request.ofArguments? args with
  | none =>
    (← IO.getStderr).putStrLn
      "Usage: spritegraph [--verbose] filter --config FILE [--events FILE] | check FILE | --version"
    return UInt32.ofNat LiveGraph.misuseCode
  | some request =>
    let answer ← request.answer LiveGraph.readSource
    (← IO.getStdout).putStr answer.output
    if answer.complaint.isSome then (← IO.getStderr).putStrLn answer.errorText
    return UInt32.ofNat answer.code
