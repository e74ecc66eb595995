import Amalgam.Text.Beginning
import Amalgam.Text.DecimalDigit
import Amalgam.Text.Quoted

/-!
# Command lines

A grammar has options and one positional argument.  An option may be shortened to any beginning that
no other option has; its value stands after it or behind an equals sign, and behind a one-letter
option also directly.  Options with one letter that take no value may be written together.  Two
dashes end the options; in the place of a value behind an option they stand for no value.
-/

set_option autoImplicit false

namespace Amalgam.Cli

/-- What an option does. -/
inductive Action where
  /-- Shows the help text and ends the program. -/
  | help
  /-- Sets a switch. -/
  | switch
  /-- Stores a value. -/
  | value
  deriving DecidableEq, Repr

/-- An option and its spellings. -/
structure OptionSpec where
  spellings : List String
  action : Action
  deriving DecidableEq, Repr

/-- The option's name in messages. -/
def OptionSpec.name (o : OptionSpec) : String := "/".intercalate o.spellings

/-- What the positional argument takes. -/
inductive Positional where
  /-- One or more arguments without options between them; they must be given. -/
  | many (name : String)
  /-- One of some commands with everything after it; it may be left out. -/
  | command (name : String) (choices : List String)
  deriving DecidableEq, Repr

/-- The command line of a program or of one of its commands. -/
structure Grammar where
  program : String
  usage : String
  help : String
  options : List OptionSpec
  positional : Positional

/-- What ends the reading of a command line before its end. -/
inductive Stop where
  | help (text : String)
  | error (usage program message : String)
  deriving DecidableEq, Repr

/-- An option as it is written: the option, the spelling used, and the text behind it. -/
structure Match where
  option : OptionSpec
  spelling : String
  behind : Option String
  deriving DecidableEq, Repr

/-- What an argument looks like. -/
inductive Token where
  | plain (text : String)
  /-- Two dashes. -/
  | dashes
  /-- An option, or something that looks like one. -/
  | option (found : Option Match) (text : String)
  deriving DecidableEq, Repr

/-- The argument that a token stands for. -/
def Token.text : Token → String
  | .plain text => text
  | .dashes => "--"
  | .option _ text => text

def Token.isOption : Token → Bool
  | .option .. => true
  | _ => false

namespace Grammar

def fail {α : Type} (g : Grammar) (message : String) : Except Stop α :=
  .error (.error g.usage g.program message)

/-- A complaint about an option. -/
def failOption {α : Type} (g : Grammar) (o : OptionSpec) (message : String) : Except Stop α :=
  g.fail ("argument " ++ o.name ++ ": " ++ message)

/-- All spellings with their options, in the order in which they were declared. -/
def spellings (g : Grammar) : List (String × OptionSpec) :=
  g.options.flatMap fun o => o.spellings.map fun s => (s, o)

/-- The option with exactly this spelling. -/
def option? (g : Grammar) (spelling : String) : Option OptionSpec :=
  (g.spellings.find? fun s => s.1 == spelling).map (·.2)

end Grammar

/-- The text before the first equals sign, and the text behind it if there is one. -/
def splitEquals (s : String) : String × Option String :=
  let cs := s.toList
  let before := String.ofList (cs.takeWhile (· != '='))
  match cs.dropWhile (· != '=') with
  | [] => (before, none)
  | _ :: rest => (before, some (String.ofList rest))

/-- Whether a text is a negative number; a newline at the end does not count. -/
def isNegativeNumber (s : String) : Bool :=
  let number (cs : List Char) : Bool :=
    match cs with
    | '-' :: rest =>
      let whole := rest.takeWhile isDecimalDigit
      match rest.dropWhile isDecimalDigit with
      | [] => !whole.isEmpty
      | '.' :: fraction => !fraction.isEmpty && fraction.all isDecimalDigit
      | _ => false
    | _ => false
  let cs := s.toList
  number cs || (cs.getLast? == some '\n' && number cs.dropLast)

namespace Grammar

/-- The options that an argument may be short for. -/
def candidates (g : Grammar) (text : String) : List Match :=
  if beginsWith "--" text then
    let (start, value) := splitEquals text
    (g.spellings.filter fun s => beginsWith start s.1).map fun s =>
      ⟨s.2, s.1, value⟩
  else
    let letter := String.ofList (text.toList.take 2)
    let rest := String.ofList (text.toList.drop 2)
    g.spellings.filterMap fun s =>
      if s.1 == letter then some ⟨s.2, s.1, some rest⟩
      else if beginsWith text s.1 then some ⟨s.2, s.1, none⟩
      else none

/-- What an argument before any two dashes looks like. -/
def classify (g : Grammar) (text : String) : Except Stop Token :=
  if !beginsWith "-" text then .ok (.plain text)
  else
    match g.option? text with
    | some o => .ok (.option (some ⟨o, text, none⟩) text)
    | none =>
      if text.length == 1 then .ok (.plain text)
      else
        let (start, value) := splitEquals text
        match value, g.option? start with
        | some v, some o => .ok (.option (some ⟨o, start, some v⟩) text)
        | _, _ =>
          match g.candidates text with
          | [m] => .ok (.option (some m) text)
          | [] =>
            if isNegativeNumber text || text.toList.contains ' ' then .ok (.plain text)
            else .ok (.option none text)
          | ms => g.fail ("ambiguous option: " ++ text ++ " could match " ++
              ", ".intercalate (ms.map fun m => m.spelling))

/-- What the arguments look like; after two dashes there are no options. -/
def tokens (g : Grammar) : List String → Except Stop (List Token)
  | [] => .ok []
  | arg :: args =>
    if arg == "--" then .ok (.dashes :: args.map .plain)
    else do
      let t ← g.classify arg
      let ts ← tokens g args
      return t :: ts

end Grammar

/-- What stands behind an option. -/
inductive Argument where
  | text (s : String)
  /-- Nothing, or two dashes in the place of a value. -/
  | nothing
  deriving DecidableEq, Repr

/-- The value that a text behind an option stands for. -/
def Argument.ofText (s : String) : Argument := if s == "--" then .nothing else .text s

def Argument.text? : Argument → Option String
  | .text s => some s
  | .nothing => none

/-- What has been read of a command line. -/
structure Parsed where
  /-- The options that were given, with their values. -/
  options : List (OptionSpec × Argument)
  /-- The arguments of the positional, if they were given. -/
  positional : Option (List String)
  /-- What could not be placed. -/
  extras : List String

namespace Parsed

def empty : Parsed := ⟨[], none, []⟩

def addExtras (p : Parsed) (texts : List String) : Parsed :=
  { p with extras := p.extras ++ texts }

def addOption (p : Parsed) (o : OptionSpec) (value : Argument) : Parsed :=
  { p with options := p.options ++ [(o, value)] }

/-- Whether an option was given. -/
def has (p : Parsed) (spelling : String) : Bool :=
  p.options.any fun o => o.1.spellings.contains spelling

/-- What stands behind an option that was given; the last one counts. -/
def argument? (p : Parsed) (spelling : String) : Option Argument :=
  (p.options.reverse.find? fun o => o.1.spellings.contains spelling).map (·.2)

/-- The value of an option, if it was given one. -/
def value? (p : Parsed) (spelling : String) : Option String :=
  (p.argument? spelling).bind Argument.text?

end Parsed

namespace Grammar

/-- The value of an option that stands in the next argument, and the tokens after it. -/
def nextValue (g : Grammar) (o : OptionSpec) : List Token → Except Stop (String × List Token)
  | .plain text :: rest => .ok (text, rest)
  | _ => g.failOption o "expected one argument"

/-- What one argument with options settles: the options with their values in order, and the tokens
after it. -/
structure Settled where
  options : List (OptionSpec × Argument)
  rest : List Token

/-- Settles an option without a value behind it. -/
def settleBare (g : Grammar) (o : OptionSpec) (rest : List Token) : Except Stop Settled :=
  match o.action with
  | .value => do
    let (v, rest) ← g.nextValue o rest
    return ⟨[(o, .text v)], rest⟩
  | _ => .ok ⟨[(o, .nothing)], rest⟩

/-- A complaint about a text behind an option that takes no value. -/
def failBehind (g : Grammar) (o : OptionSpec) (text : List Char) : Except Stop Settled :=
  g.failOption o ("ignored explicit argument " ++ quoted (String.ofList text))

/-- Settles an option with a text behind it.  The text is the option's value; for a letter that
takes no value it holds more letters, all of which must be options. -/
def settle (g : Grammar) (rest : List Token) : (o : OptionSpec) → (spelling : String) →
    (text : List Char) → Except Stop Settled
  | o, spelling, text =>
    if o.action == .value then .ok ⟨[(o, .ofText (String.ofList text))], rest⟩
    else
      match text with
      | [] => g.failBehind o []
      | c :: cs =>
        if beginsWith "--" spelling then g.failBehind o (c :: cs)
        else
          let letter := String.ofList ['-', c]
          match g.option? letter, cs with
          | none, _ => g.failBehind o (c :: cs)
          | some next, [] => do
            let s ← g.settleBare next rest
            return { s with options := (o, .nothing) :: s.options }
          | some next, d :: ds => do
            let s ← settle g rest next letter (d :: ds)
            return { s with options := (o, .nothing) :: s.options }

/-- Carries out options in order. -/
def act (g : Grammar) : Parsed → List (OptionSpec × Argument) → Except Stop Parsed
  | p, [] => .ok p
  | p, (o, value) :: os =>
    match o.action with
    | .help => .error (.help g.help)
    | _ => act g (p.addOption o value) os

/-- Reads an option. -/
def readOption (g : Grammar) (p : Parsed) (found : Option Match) (text : String)
    (rest : List Token) : Except Stop (Parsed × List Token) :=
  match found with
  | none => .ok (p.addExtras [text], rest)
  | some m => do
    let s ← match m.behind with
      | none => g.settleBare m.option rest
      | some v => g.settle rest m.option m.spelling v.toList
    let p ← g.act p s.options
    return (p, s.rest)

/-- Splits off the arguments of the positional, if they start here: the arguments, and the rest. -/
def splitPositional (g : Grammar) (ts : List Token) : Option (List String × List Token) :=
  match ts.dropWhile (· == .dashes) with
  | .plain _ :: _ =>
    match g.positional with
    | .many _ =>
      let mine := ts.takeWhile fun t => !t.isOption
      some ((mine.map Token.text).erase "--", ts.drop mine.length)
    | .command .. => some (ts.map Token.text, [])
  | _ => none

/-- Reads the positional, if it has not been read and starts here. -/
def readPositional (g : Grammar) (p : Parsed) (ts : List Token) :
    Except Stop (Option (Parsed × List Token)) :=
  match p.positional, g.splitPositional ts with
  | none, some (args, rest) =>
    match g.positional, args with
    | .command name choices, first :: _ =>
      if choices.contains first then .ok (some ({ p with positional := some args }, rest))
      else g.fail ("argument " ++ name ++ ": invalid choice: " ++ quoted first ++
        " (choose from " ++ ", ".intercalate (choices.map quoted) ++ ")")
    | _, _ => .ok (some ({ p with positional := some args }, rest))
  | _, _ => .ok none

/-- Reads tokens in turn.  Each round takes at least one token, so as many rounds as tokens
suffice. -/
def readTokens (g : Grammar) : (rounds : Nat) → Parsed → List Token → Except Stop Parsed
  | 0, p, ts => .ok (p.addExtras (ts.map Token.text))
  | rounds + 1, p, ts =>
    match ts with
    | .option found text :: rest => do
      let (p, rest) ← g.readOption p found text rest
      readTokens g rounds p rest
    | [] => .ok p
    | _ => do
      match ← g.readPositional p ts with
      | some (p, rest) => readTokens g rounds p rest
      | none =>
        let extra := ts.takeWhile fun t => !t.isOption
        readTokens g rounds (p.addExtras (extra.map Token.text)) (ts.drop extra.length)

/-- Reads a command line.  What cannot be placed is left to the caller. -/
def read (g : Grammar) (args : List String) : Except Stop Parsed := do
  let ts ← g.tokens args
  let p ← g.readTokens (ts.length + 1) Parsed.empty ts
  match g.positional, p.positional with
  | .many name, none => g.fail ("the following arguments are required: " ++ name)
  | _, _ => return p

end Grammar

end Amalgam.Cli
