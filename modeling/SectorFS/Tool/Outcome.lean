import SectorFS.Failure

/-!
What a run of the tool leaves behind apart from files, and how it shows an error.
-/

namespace SectorFS

/-- A device error with its origin: the host system, the end of the data, or the device. -/
def DiskError.structured (cause : DiskError) : String :=
  let text := Text.quote cause.text
  let body := match cause.hostCode, cause with
    | some code, _ => s!"Os \x7b code: {code}, kind: {cause.kind}, message: {text}"
    | none, .shortRead => s!"Error \x7b kind: {cause.kind}, message: {text}"
    | none, _ => s!"Custom \x7b kind: {cause.kind}, error: {text}"
  body ++ " \x7d"

/-- The kind of an error with what it carries, as the tool shows it. -/
def Error.structured (e : Error) : String :=
  match e with
  | .invalidArgument cause => e.kind ++ "(" ++ Text.quote cause.message ++ ")"
  | .invalidLayout cause => e.kind ++ "(" ++ Text.quote cause.message ++ ")"
  | .badDescriptor id => s!"{e.kind}({id})"
  | .io cause => e.kind ++ "(" ++ cause.structured ++ ")"
  | _ => e.kind

namespace Tool

structure Outcome where
  /-- The exit code: 0 for success, 1 for an error, 2 for a command line that cannot be read, 101
  for a fault. -/
  code : Nat
  output : List UInt8
  complaint : String
  deriving DecidableEq

namespace Outcome

def success (output : List UInt8) : Outcome := ⟨0, output, ""⟩

/-- The command line could not be read. -/
def usage : Outcome := ⟨2, [], "error: invalid command line\n"⟩

def ofFailure : Failure → Outcome
  | .error e => ⟨1, [], s!"Error: {e.structured}\n"⟩
  | .fault f => ⟨101, [], s!"fault: {f.message}\n"⟩

end Outcome

end Tool

end SectorFS
