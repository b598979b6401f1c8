/-!
# Arguments

How the words of a command line are taken apart. A word that begins with two dashes is an option by its long name, one
that begins with a single dash a row of options by their letters, and every other word an operand; behind a word of
two dashes alone all words are operands. The words are gone through in order, and the first that asks for help or
cannot be understood ends the reading.
-/

namespace Folio.Cli

/-- An option of a command. -/
structure Switch where
  long : String
  letter? : Option Char := none
  /-- The values that the option takes; none if it takes no value. -/
  accepts? : Option (String → Bool) := none
  /-- The option may be given more than once. -/
  repeats : Bool := false

/-- Why a command line asks for nothing to be done. -/
inductive Stop
  | help
  | version
  /-- The words cannot be understood. -/
  | mistake
  deriving DecidableEq, Repr

/-- The words of a command line as they were understood: operands, and options with their values, in order. -/
structure Words where
  operands : List String := []
  options : List (String × String) := []
  deriving DecidableEq, Repr

namespace Words

/-- The values given for an option. -/
def values (w : Words) (long : String) : List String :=
  (w.options.filter (·.1 = long)).map Prod.snd

/-- The value given for an option. -/
def value? (w : Words) (long : String) : Option String :=
  (w.values long).head?

/-- The option is given. -/
def has (w : Words) (long : String) : Bool :=
  !(w.values long).isEmpty

/-- The words with one more operand. -/
def addOperand (w : Words) (s : String) : Words :=
  { w with operands := w.operands ++ [s] }

/-- The words with one more option; a mistake if it may not be given again or does not take the value. -/
def add (w : Words) (s : Switch) (value : String) : Except Stop Words :=
  if (w.has s.long && !s.repeats) || s.accepts?.any (fun accepts => !accepts value) then .error .mistake
  else .ok { w with options := w.options ++ [(s.long, value)] }

end Words

/-- What a command understands. -/
structure Grammar where
  switches : List Switch
  /-- The command tells its version. -/
  hasVersion : Bool := false
  /-- An operand can be used. -/
  acceptsOperand : String → Bool := fun _ => true

namespace Grammar

/-- What stops the reading at an option that is no switch. -/
def stopAt? (g : Grammar) (long : String) : Option Stop :=
  if long = "help" then some .help
  else if g.hasVersion && long = "version" then some .version
  else none

/-- The long name of an option that is no switch, by its letter. -/
def stopLetter? (g : Grammar) (letter : Char) : Option Stop :=
  if letter = 'h' then some .help
  else if g.hasVersion && letter = 'V' then some .version
  else none

/-- The switch of a long name. -/
def find (g : Grammar) (long : String) : Except Stop Switch :=
  match g.switches.find? (·.long = long) with
  | some s => .ok s
  | none => .error ((g.stopAt? long).getD .mistake)

/-- The switch of a letter. -/
def findLetter (g : Grammar) (letter : Char) : Except Stop Switch :=
  match g.switches.find? (·.letter? = some letter) with
  | some s => .ok s
  | none => .error ((g.stopLetter? letter).getD .mistake)

/-- A word cut at its first equals sign. -/
def cutValue : List Char → List Char × Option (List Char)
  | [] => ([], none)
  | '=' :: value => ([], some value)
  | c :: rest =>
    let (name, value?) := cutValue rest
    (c :: name, value?)

/-- Read an option by its long name. A switch whose value must follow is returned. -/
def readLong (g : Grammar) (w : Words) (cs : List Char) : Except Stop (Words × Option Switch) := do
  let (name, value?) := cutValue cs
  let s ← match g.find (String.ofList name) with
    | .ok s => .ok s
    | .error stop => .error (if value?.isSome then .mistake else stop)
  match s.accepts?, value? with
  | none, none => return (← w.add s "", none)
  | none, some _ => throw .mistake
  | some _, none => return (w, some s)
  | some _, some value => return (← w.add s (String.ofList value), none)

/-- Read options by their letters. A switch whose value must follow is returned; otherwise the rest of the word is its
value, with an equals sign before it or not. -/
def readLetters (g : Grammar) (w : Words) : List Char → Except Stop (Words × Option Switch)
  | [] => .ok (w, none)
  | letter :: rest => do
    let s ← g.findLetter letter
    if s.accepts?.isNone then g.readLetters (← w.add s "") rest
    else match rest with
      | [] => return (w, some s)
      | '=' :: value => return (← w.add s (String.ofList value), none)
      | value => return (← w.add s (String.ofList value), none)

/-- The word is an option, or several. -/
def isOption (word : String) : Bool :=
  match word.toList with
  | '-' :: _ :: _ => true
  | _ => false

/-- Read an option, or several, from a word. -/
def readOption (g : Grammar) (w : Words) (word : String) : Except Stop (Words × Option Switch) :=
  match word.toList with
  | '-' :: '-' :: cs => g.readLong w cs
  | _ :: cs => g.readLetters w cs
  | [] => .error .mistake

/-- Read an operand. -/
def readOperand (g : Grammar) (w : Words) (word : String) : Except Stop Words :=
  if w.operands.isEmpty && g.acceptsOperand word then .ok (w.addOperand word) else .error .mistake

/-- Read words. A switch that waits for its value does not take an option for it. -/
def read (g : Grammar) (w : Words) : List String → Except Stop Words
  | [] => .ok w
  | "--" :: rest => rest.foldlM g.readOperand w
  | word :: rest =>
    if isOption word then
      match g.readOption w word with
      | .error stop => .error stop
      | .ok (w, none) => g.read w rest
      | .ok (w, some s) =>
        match rest with
        | [] => .error .mistake
        | value :: rest =>
          if isOption value then .error .mistake
          else match w.add s value with
            | .error stop => .error stop
            | .ok w => g.read w rest
    else match g.readOperand w word with
      | .error stop => .error stop
      | .ok w => g.read w rest

end Grammar

end Folio.Cli
