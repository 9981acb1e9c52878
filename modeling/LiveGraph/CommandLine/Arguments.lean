/-!
# Arguments

* `Word`: an argument as it is written.
* `Request`, `Request.ofArguments?`: what the arguments ask for; none if they cannot be understood.
-/

namespace LiveGraph

/-! ## Words -/

/-- An argument as it is written. -/
inductive Word where
  /-- After two hyphens alone only operands follow. -/
  | separator
  | long (name : String) (value : Option String)
  | short (letter : Char)
  | operand (text : String)
deriving DecidableEq

namespace Word

/-- A long option, after its two hyphens. -/
def ofLong (cs : List Char) : Word :=
  let name := String.ofList (cs.takeWhile (· ≠ '='))
  match cs.dropWhile (· ≠ '=') with
  | [] => long name none
  | _ :: value => long name (some (String.ofList value))

/-- An argument in front of which there is no separator. Short options can be written together. -/
def ofArgument (a : String) : List Word :=
  match a.toList with
  | ['-', '-'] => [separator]
  | '-' :: '-' :: cs => [ofLong cs]
  | '-' :: c :: cs => (c :: cs).map short
  | _ => [operand a]

def ofArguments : List String → List Word
  | [] => []
  | a :: as => if a = "--" then separator :: as.map operand else ofArgument a ++ ofArguments as

end Word

/-! ## Requests -/

/-- What is asked for. -/
inductive Request where
  | version
  /-- A log is run through a filter; without a file it is the standard input. -/
  | filter (config : String) (events : Option String)
  /-- Settings are listed. -/
  | check (config : String)
deriving DecidableEq

/-- What follows the name of a command. -/
structure Given where
  verbose : Bool
  options : List (String × String)
  operands : List String

namespace Given

def nothing : Given := ⟨false, [], []⟩

variable (g : Given)

/-- An option with its value, which can be given once. -/
def addOption? (name value : String) : Option Given :=
  if g.options.any (·.1 = name) then none else some { g with options := (name, value) :: g.options }

/-- The words after the name of a command that knows some options. -/
def gather? (known : List String) : Given → List Word → Option Given
  | g, [] => some g
  | g, .separator :: ws => gather? known g ws
  | g, .operand text :: ws => gather? known { g with operands := g.operands ++ [text] } ws
  | g, .short letter :: ws =>
    if letter = 'v' ∧ !g.verbose then gather? known { g with verbose := true } ws else none
  | g, .long name value :: ws =>
    if name = "verbose" then
      if value = none ∧ !g.verbose then gather? known { g with verbose := true } ws else none
    else if known.contains name then
      match value, ws with
      | some v, ws => do gather? known (← g.addOption? name v) ws
      | none, .operand v :: ws => do gather? known (← g.addOption? name v) ws
      | none, _ => none
    else none

end Given

namespace Request

def filter? (ws : List Word) : Option Request := do
  let g ← Given.nothing.gather? ["config", "events"] ws
  let config ← g.options.lookup "config"
  let events := g.options.lookup "events"
  if g.operands = [] ∧ config ≠ "" ∧ events ≠ some "" then some (.filter config events) else none

def check? (ws : List Word) : Option Request := do
  let g ← Given.nothing.gather? [] ws
  match g.operands with
  | [config] => if config ≠ "" then some (.check config) else none
  | _ => none

/-- The request that words make; `verbose` tells whether they were preceded by that option. -/
def ofWords? : (verbose : Bool) → List Word → Option Request
  | _, .operand "filter" :: ws => filter? ws
  | _, .operand "check" :: ws => check? ws
  | _, .long "version" none :: _ => some version
  | _, .short 'V' :: _ => some version
  | false, .long "verbose" none :: ws => ofWords? true ws
  | false, .short 'v' :: ws => ofWords? true ws
  | _, _ => none

def ofArguments? (args : List String) : Option Request := ofWords? false (Word.ofArguments args)

end Request

end LiveGraph
