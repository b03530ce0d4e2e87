import GridInversion.Cli.Arguments
import GridInversion.Random.ChaCha

namespace GridInversion.Cli

structure Exit where
  status : Nat
  stdout : String
  stderr : String
deriving DecidableEq

def Exit.ofRun : Except Failure Report → Exit
  | .ok r => ⟨0, r.stdout, r.stderr⟩
  | .error failure => ⟨1, "", "error: " ++ failure.message ++ "\n"⟩

/-- A source that names no input has no use for what the inputs hold. -/
def contentOf (stdin : Content) (file : String → Content) : Source → Content
  | .example => .ok .empty
  | .random _ => .ok .empty
  | .stdin => stdin
  | .file path => file path

/-- What the program takes from elsewhere: the reading of its arguments, which may end it, and the
numbers of random matrices. -/
structure Platform where
  read : List String → Except Exit Options
  generator : Random.Generator

/-- The whole program, given what the standard input and the files hold. -/
def Platform.respond (p : Platform) (args : List String) (stdin : Content)
    (file : String → Content) : Exit :=
  match p.read args with
  | .error exit => exit
  | .ok o => .ofRun (o.run p.generator (contentOf stdin file o.source))

/-- Of the text of help, and of the answer to unacceptable arguments, only this line is written. -/
def usage : String := "Usage: gjinv [OPTIONS] [INPUT]\n"

def Exit.ofStop : Stop → Exit
  | .version => ⟨0, "gjinv 0.1.0\n", ""⟩
  | .help => ⟨0, usage, ""⟩
  | .rejected => ⟨2, "", usage⟩

def standard : Platform := ⟨fun args => (readArguments args).mapError .ofStop, Random.chaCha⟩

def respond : List String → Content → (String → Content) → Exit := standard.respond

end GridInversion.Cli
