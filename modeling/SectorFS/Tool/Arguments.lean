/-!
Command line words as options and operands. The value of an option is the next word, or is attached
to the option with or without an equals sign.
-/

namespace SectorFS.Tool

/-- An option with its two spellings, `--long` and `-s`. -/
structure Switch where
  long : String
  short : Char
  takesValue : Bool
  deriving DecidableEq

/-- A switch as it was given; one that takes no value has the empty text. -/
structure Setting where
  switch : Switch
  value : String

/-- Words taken apart; operands keep their order. -/
structure Arguments where
  settings : List Setting
  operands : List String

namespace Arguments

/-- What was given for a switch. -/
def value? (arguments : Arguments) (switch : Switch) : Option String :=
  (arguments.settings.find? (·.switch == switch)).map (·.value)

/-- No switch may be given twice. -/
def isConsistent (arguments : Arguments) : Bool :=
  (arguments.settings.map (·.switch)).Nodup

/-- A word that starts with a dash is an option, unless it is the dash alone. -/
def isOption (word : String) : Bool := word.toList.head? == some '-' && word != "-"

/-- An option is complete, or waits for its value. -/
abbrev OptionReading := List Setting × Option Switch

/-- The option `--text`. -/
def readLong (switches : List Switch) (text : List Char) : Option OptionReading := do
  let name := String.ofList (text.takeWhile (· != '='))
  let switch ← switches.find? (·.long == name)
  match text.dropWhile (· != '='), switch.takesValue with
  | [], true => some ([], some switch)
  | [], false => some ([⟨switch, ""⟩], none)
  | _ :: value, true => some ([⟨switch, String.ofList value⟩], none)
  | _ :: _, false => none

/-- The short options of one word. The first that takes a value takes all that is attached. -/
def readShort (switches : List Switch) : List Char → Option OptionReading
  | [] => some ([], none)
  | c :: attached => do
    let switch ← switches.find? (·.short == c)
    if switch.takesValue then
      match attached with
      | [] => some ([], some switch)
      | '=' :: value => some ([⟨switch, String.ofList value⟩], none)
      | value => some ([⟨switch, String.ofList value⟩], none)
    else
      let (settings, waiting) ← readShort switches attached
      some (⟨switch, ""⟩ :: settings, waiting)

def readOption (switches : List Switch) (word : String) : Option OptionReading :=
  match word.toList with
  | '-' :: '-' :: text => readLong switches text
  | '-' :: text => readShort switches text
  | _ => none

/-- Takes words apart while `waiting` still needs its value. Without `mixed`, the first operand ends
the options and makes operands of all words behind it; with it, two dashes alone do so. -/
def readFrom (switches : List Switch) (mixed : Bool) :
    (waiting : Option Switch) → List String → Option Arguments
  | none, [] => some ⟨[], []⟩
  | some _, [] => none
  | some switch, word :: rest =>
    if isOption word then none
    else do
      let later ← readFrom switches mixed none rest
      some { later with settings := ⟨switch, word⟩ :: later.settings }
  | none, word :: rest =>
    if word == "--" then if mixed then some ⟨[], rest⟩ else none
    else if isOption word then do
      let (settings, waiting) ← readOption switches word
      let later ← readFrom switches mixed waiting rest
      some { later with settings := settings ++ later.settings }
    else if mixed then do
      let later ← readFrom switches mixed none rest
      some { later with operands := word :: later.operands }
    else some ⟨[], word :: rest⟩

def read (switches : List Switch) (mixed : Bool) (words : List String) : Option Arguments :=
  (readFrom switches mixed none words).filter isConsistent

end Arguments

end SectorFS.Tool
