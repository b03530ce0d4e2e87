import GridInversion.Cli.Run

namespace GridInversion.Cli

inductive OptionName where
  | random
  | seed
  | epsilon
  | threads
  | precision
deriving DecidableEq

inductive FlagName where
  | demo
  | serial
  | pinCores
  | single
  | verify
deriving DecidableEq

structure Given where
  input : Option String
  random : Option Nat
  seed : Option Nat
  epsilon : Option Float
  threads : Option Nat
  precision : Option Nat
  flags : List FlagName

def Given.nothing : Given := ⟨none, none, none, none, none, none, []⟩

inductive Stop where
  | version
  | help
  | rejected
deriving DecidableEq

def wordBound : Nat := powTwo 64

def word? (cs : List Char) : Option Nat :=
  let ds := match cs with
    | '+' :: rest => rest
    | _ => cs
  (Decimal.Numeral.wholeNumber? ds).filter (· < wordBound)

def double? (cs : List Char) : Option Float :=
  (Decimal.Numeral.ofChars? cs).map fun n => MachineScalar.ofValue (n.round .double)

def OptionName.ofString? (name : String) : Option OptionName :=
  match name with
  | "random" => some .random
  | "seed" => some .seed
  | "epsilon" => some .epsilon
  | "threads" => some .threads
  | "precision" => some .precision
  | _ => none

def FlagName.ofString? (name : String) : Option FlagName :=
  match name with
  | "demo" => some .demo
  | "serial" => some .serial
  | "pin-cores" => some .pinCores
  | "f32" => some .single
  | "verify" => some .verify
  | _ => none

namespace Given

def once {β : Type} (old : Option β) (new : Option β) : Except Stop (Option β) :=
  match old, new with
  | none, some b => .ok (some b)
  | _, _ => .error .rejected

def setOption (g : Given) (name : OptionName) (value : List Char) : Except Stop Given :=
  match name with
  | .random => (once g.random (word? value)).map fun v => { g with random := v }
  | .seed => (once g.seed (word? value)).map fun v => { g with seed := v }
  | .epsilon => (once g.epsilon (double? value)).map fun v => { g with epsilon := v }
  | .threads => (once g.threads (word? value)).map fun v => { g with threads := v }
  | .precision => (once g.precision (word? value)).map fun v => { g with precision := v }

def setFlag (g : Given) (flag : FlagName) : Except Stop Given :=
  if flag ∈ g.flags then .error .rejected else .ok { g with flags := flag :: g.flags }

def setInput (g : Given) (name : List Char) : Except Stop Given :=
  if name.isEmpty then .error .rejected
  else (once g.input (some (String.ofList name))).map fun v => { g with input := v }

def setInputs (g : Given) : List String → Except Stop Given
  | [] => .ok g
  | name :: rest =>
      match g.setInput name.toList with
      | .ok g => g.setInputs rest
      | .error stop => .error stop

end Given

inductive Argument where
  | onlyFiles
  | long (name : String) (value : Option (List Char))
  | short (letters : List Char)
  | file (name : List Char)

/-- A dash alone is a file name. -/
def Argument.ofChars : List Char → Argument
  | ['-', '-'] => onlyFiles
  | '-' :: '-' :: cs =>
      long (String.ofList (cs.takeWhile (· != '=')))
        (match cs.dropWhile (· != '=') with
          | _ :: value => some value
          | [] => none)
  | '-' :: c :: cs => short (c :: cs)
  | cs => file cs

def isValue (arg : String) : Bool :=
  match Argument.ofChars arg.toList with
  | .file _ => true
  | _ => false

def shortStop : List Char → Stop
  | 'V' :: _ => .version
  | 'h' :: _ => .help
  | _ => .rejected

inductive LongName where
  | option (name : OptionName)
  | flag (name : FlagName)
  | stop (stop : Stop)

def LongName.ofString (name : String) : LongName :=
  match OptionName.ofString? name, FlagName.ofString? name with
  | some o, _ => option o
  | none, some f => flag f
  | none, none =>
      stop (if name = "version" then .version else if name = "help" then .help else .rejected)

def readFrom : Given → List String → Except Stop Given
  | g, [] => .ok g
  | g, arg :: rest =>
      match Argument.ofChars arg.toList with
      | .onlyFiles => g.setInputs rest
      | .short letters => .error (shortStop letters)
      | .file name =>
          match g.setInput name with
          | .ok g => readFrom g rest
          | .error stop => .error stop
      | .long name value =>
          match LongName.ofString name, value with
          | .option o, some v =>
              match g.setOption o v with
              | .ok g => readFrom g rest
              | .error stop => .error stop
          | .option o, none =>
              match rest with
              | [] => .error .rejected
              | v :: rest =>
                  if isValue v then
                    match g.setOption o v.toList with
                    | .ok g => readFrom g rest
                    | .error stop => .error stop
                  else .error .rejected
          | .flag f, none =>
              match g.setFlag f with
              | .ok g => readFrom g rest
              | .error stop => .error stop
          | .stop stop, none => .error stop
          | _, some _ => .error .rejected

namespace Given

def has (g : Given) (flag : FlagName) : Bool := g.flags.contains flag

def conflicts (g : Given) : Bool :=
  (g.has .demo && (g.random.isSome || g.input.isSome)) ||
    (g.random.isSome && g.input.isSome) ||
    (g.has .serial && (g.threads.isSome || g.has .pinCores))

def source (g : Given) : Source :=
  if g.has .demo then .example
  else
    match g.random, g.input with
    | some n, _ => .random n
    | none, some path => if path = "-" then .stdin else .file path
    | none, none => .stdin

def options (g : Given) : Options where
  source := g.source
  seed := g.seed.getD 13
  epsilon := g.epsilon
  serial := g.has .serial
  threads := g.threads.getD 0
  pinCores := g.has .pinCores
  places := g.precision.getD 2
  single := g.has .single
  verify := g.has .verify

end Given

def readArguments (args : List String) : Except Stop Options :=
  match readFrom .nothing args with
  | .error stop => .error stop
  | .ok g => if g.conflicts then .error .rejected else .ok g.options

end GridInversion.Cli
