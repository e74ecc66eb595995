import Amalgam.Cli.Grammar
import Amalgam.Remote.Submission

/-!
# The command line

Two commands: `bundle` writes the bundle of some files, `run` bundles files and runs them on the
remote service.  A command is a function from what it sees of its surroundings to what it leaves
behind.
-/

set_option autoImplicit false

namespace Amalgam.Cli

/-! ## Grammars -/

def helpOption : OptionSpec := ⟨["-h", "--help"], .help⟩

def langOption : OptionSpec := ⟨["--lang"], .value⟩

def topUsage : String := "usage: tubundle [-h] [--verbose] \x7bbundle,run\x7d ...\n"

/-- The command line of the program. -/
def top : Grammar :=
  { program := "tubundle"
    usage := topUsage
    help := topUsage ++
      "\n" ++
      "Bundle multi-file C/C++ projects into one translation unit\n" ++
      "\n" ++
      "positional arguments:\n" ++
      "  \x7bbundle,run\x7d\n" ++
      "    bundle      Bundle files into main.cpp / main.c\n" ++
      "    run         Bundle files and run them on the remote compiler\n" ++
      "\n" ++
      "options:\n" ++
      "  -h, --help    show this help message and exit\n" ++
      "  --verbose     Enable verbose output (sent to stderr)\n"
    options := [helpOption, ⟨["--verbose"], .switch⟩]
    positional := .command "command" ["bundle", "run"] }

def bundleUsage : String :=
  "usage: tubundle bundle [-h] [--lang LANG] [-o OUTPUT] files [files ...]\n"

/-- The command line of `bundle`. -/
def bundleGrammar : Grammar :=
  { program := "tubundle bundle"
    usage := bundleUsage
    help := bundleUsage ++
      "\n" ++
      "positional arguments:\n" ++
      "  files                 Source and header files\n" ++
      "\n" ++
      "options:\n" ++
      "  -h, --help            show this help message and exit\n" ++
      "  --lang LANG           c or cpp (default: inferred from extensions)\n" ++
      "  -o OUTPUT, --output OUTPUT\n" ++
      "                        Output file (default: stdout)\n"
    options := [helpOption, langOption, ⟨["-o", "--output"], .value⟩]
    positional := .many "files" }

def runUsage : String :=
  "usage: tubundle run [-h] [--lang LANG] [--version VERSION] [--stdin STDIN]\n" ++
  "                    files [files ...]\n"

/-- The command line of `run`. -/
def runGrammar : Grammar :=
  { program := "tubundle run"
    usage := runUsage
    help := runUsage ++
      "\n" ++
      "positional arguments:\n" ++
      "  files              Source and header files\n" ++
      "\n" ++
      "options:\n" ++
      "  -h, --help         show this help message and exit\n" ++
      "  --lang LANG        c or cpp (default: inferred from extensions)\n" ++
      "  --version VERSION  Compiler version (default: from config, 'latest')\n" ++
      "  --stdin STDIN      File whose content is passed as program stdin\n"
    options := [helpOption, langOption, ⟨["--version"], .value⟩, ⟨["--stdin"], .value⟩]
    positional := .many "files" }

/-- What the program is asked to do. -/
inductive Command where
  | showHelp
  | bundle (files : List String) (lang output : Option String)
  | run (files : List String) (lang : Option String) (version : Option Argument)
      (stdin : Option String)
  deriving DecidableEq, Repr

/-- A command and whether debug notices are shown. -/
structure Invocation where
  verbose : Bool
  command : Command
  deriving DecidableEq, Repr

/-- The command that arguments after its name ask for, and the arguments that could not be
placed. -/
def readCommand : List String → Except Stop (Command × List String)
  | [] => .ok (.showHelp, [])
  | name :: args =>
    if name == "bundle" then do
      let p ← bundleGrammar.read args
      return (.bundle (p.positional.getD []) (p.value? "--lang") (p.value? "--output"), p.extras)
    else do
      let p ← runGrammar.read args
      return (.run (p.positional.getD []) (p.value? "--lang") (p.argument? "--version")
        (p.value? "--stdin"), p.extras)

/-- Reads the arguments of the program. -/
def readInvocation (args : List String) : Except Stop Invocation := do
  let p ← top.read args
  let (command, more) ← readCommand (p.positional.getD [])
  match p.extras ++ more with
  | [] => return ⟨p.has "--verbose", command⟩
  | extras => top.fail ("unrecognized arguments: " ++ " ".intercalate extras)

/-! ## Running a command -/

/-- What a program does and leaves behind. -/
structure Outcome where
  /-- The exit status, or the fault that ended the program. -/
  exit : Except Fault Nat
  /-- All that was seen of the program, in order. -/
  effects : List Effect
  disk : Disk

namespace Outcome

/-- What stands on standard output in the end. -/
def stdout (o : Outcome) : String := String.join (o.effects.filterMap Effect.out?)

/-- What stands on standard error in the end. -/
def stderr (o : Outcome) : String := String.join (o.effects.filterMap Effect.err?)

/-- The calls that were made. -/
def calls (o : Outcome) : List Call := o.effects.filterMap Effect.call?

end Outcome

/-- A text, if one is given that is not empty. -/
def given (text : Option String) : Option String := text.filter fun s => !s.isEmpty

/-- The files at some paths, each under the name that was given, or the first path that is no
file. -/
def openSources (disk : Disk) : List String → Except String (List TextFile)
  | [] => .ok []
  | path :: paths =>
    match disk.read path with
    | .error _ => .error path
    | .ok bytes =>
      (openSources disk paths).map fun files => ⟨path, Utf8.readTextLossy bytes⟩ :: files

/-- The language that is asked for, or the one of the files. -/
def languageFor (lang : Option String) (files : List TextFile) : Option String :=
  match given lang with
  | some name => some (Language.tag name)
  | none => Language.guess (files.map (·.name))

/-- The sources and their language, or what is said about their lack. -/
def sourcesAndLanguage (disk : Disk) (paths : List String) (lang : Option String) :
    Except String (List TextFile × String) :=
  match openSources disk paths with
  | .error path => .error ("Error: File '" ++ path ++ "' not found.\n")
  | .ok files =>
    match languageFor lang files with
    | none =>
      .error "Error: Cannot infer the language from file extensions; pass --lang.\n"
    | some tag => .ok (files, tag)

/-- The report of a failure on the command line. -/
def report (d : Diagnostic) : String := "Error: " ++ d.render ++ "\n"

/-- The outcome of a program that has failed after these effects. -/
def Outcome.failed (disk : Disk) (before : List Effect) (e : Failure) : Outcome :=
  match e with
  | .fault f => ⟨.error f, before, disk⟩
  | .input e => ⟨.ok 1, before ++ [.err (report e.diagnostic)], disk⟩
  | .settings e => ⟨.ok 1, before ++ [.err (report e.diagnostic)], disk⟩
  | .remote e => ⟨.ok 1, before ++ [.err (report e.diagnostic)], disk⟩

/-- The text that is put out for files: their contents one after another. -/
def joinedText (files : List TextFile) : String := "\n".intercalate (files.map (·.content))

/-- Writes the bundle of some files. -/
def runBundle (w : World) (verbose : Bool) (paths : List String) (lang output : Option String) :
    Outcome :=
  match sourcesAndLanguage w.disk paths lang with
  | .error text => ⟨.ok 1, [.err text], w.disk⟩
  | .ok (files, tag) =>
    let loaded := w.settings none
    match loaded.value with
    | .error e => .failed w.disk (Effect.telling verbose loaded.notices) e
    | .ok settings =>
      let built := filesWithin w.depths.headers .plain tag files settings.includeLimit
      let told := Effect.telling verbose (loaded.notices ++ built.notices)
      match built.value with
      | .error f => ⟨.error f, told, w.disk⟩
      | .ok sent =>
        let warnings :=
          if 1 < sent.length then
            [Notice.warning ("Nothing to bundle for language '" ++ tag ++
              "'; writing files one after another")]
          else []
        let told := told ++ Effect.telling verbose warnings
        match given output with
        | none => ⟨.ok 0, told ++ [.out (joinedText sent)], w.disk⟩
        | some path =>
          match w.disk.write path (Utf8.encode (joinedText sent)) with
          | .error e => ⟨.error (.cannotOpen e), told, w.disk⟩
          | .ok disk =>
            let last :=
              Notice.info ("Wrote " ++ toString files.length ++ " input file(s) to " ++ path)
            ⟨.ok 0, told ++ Effect.telling verbose [last], disk⟩

/-- The text for standard input, from a file that must be UTF-8. -/
def readStdin (disk : Disk) (path : Option String) : Except Fault (Option String) :=
  match given path with
  | none => .ok none
  | some path =>
    match disk.read path with
    | .error e => .error (.cannotOpen e)
    | .ok bytes =>
      match Utf8.readText bytes with
      | .error e => .error (.undecodable e)
      | .ok text => .ok (some text)

/-- A text that the remote program put out, if there is one. -/
def outputField (fields : Fields) (name : String) : Except Fault (Option Text) :=
  match Value.lookup fields name with
  | none => .ok none
  | some v =>
    if v.isEmptyLike then .ok none
    else
      match v with
      | .text t => .ok (some t)
      | v => .error (.notText v.kind)

/-- What is written to standard output, which takes no unpaired surrogates. -/
def outputText (fields : Fields) : Except Fault (Option String) :=
  match outputField fields "stdout" with
  | .error f => .error f
  | .ok none => .ok none
  | .ok (some t) => (t.writable.map some).mapError .unwritable

/-- The line about the exception that an answer reports, if it reports one. -/
def problemLine? (fields : Fields) : Option Text :=
  let problem := (Value.lookup fields "exception").getD .null
  if problem.isEmptyLike then none else some (problem.toText ++ .proper "\n")

/-- The status that an answer reports. -/
def statusOf (fields : Fields) : Value := (Value.lookup fields "status").getD (.text "unknown")

/-- The line that ends a run. -/
def finishedLine (fields : Fields) : Text :=
  Notice.render ⟨.info, .proper "Remote run finished: " ++ (statusOf fields).toText⟩

/-- The exit status for the status that an answer reports. -/
def exitCode (fields : Fields) : Nat :=
  match statusOf fields with
  | .text (.proper s) => if s == "success" || s == "unknown" then 0 else 1
  | _ => 1

/-- Shows the result of a remote run. -/
def showResult : Value → Except Fault Nat × List Effect
  | .object fields =>
    match outputText fields with
    | .error f => (.error f, [])
    | .ok out =>
      let shown := out.toList.map Effect.out
      match outputField fields "stderr" with
      | .error f => (.error f, shown)
      | .ok err =>
        let lines := err.toList ++ (problemLine? fields).toList ++ [finishedLine fields]
        (.ok (exitCode fields), shown ++ lines.map .err)
  | v => (.error (.noFields v.kind), [])

/-- Runs some files on the remote service. -/
def runRemote (w : World) (verbose : Bool) (paths : List String)
    (lang : Option String) (version : Option Argument) (stdin : Option String) : Outcome :=
  match sourcesAndLanguage w.disk paths lang with
  | .error text => ⟨.ok 1, [.err text], w.disk⟩
  | .ok (files, tag) =>
    match readStdin w.disk stdin, version with
    | .error f, _ => ⟨.error f, [], w.disk⟩
    | .ok _, some .nothing => ⟨.error .noVersion, [], w.disk⟩
    | .ok stdin, _ =>
      let version := (version.bind Argument.text?).map Text.proper
      let run := w.submitTo none w.service
        ⟨tag, version, stdin.map .proper, files.map TextFile.record⟩
      match run.result with
      | .error e => .failed w.disk (run.effects verbose) e
      | .ok v =>
        let (exit, shown) := showResult v
        ⟨exit, run.effects verbose ++ shown, w.disk⟩

/-- Runs the program with some arguments. -/
def invoke (w : World) (args : List String) : Outcome :=
  match readInvocation args with
  | .error (.help text) => ⟨.ok 0, [.out text], w.disk⟩
  | .error (.error usage program message) =>
    ⟨.ok 2, [.err (usage ++ program ++ ": error: " ++ message ++ "\n")], w.disk⟩
  | .ok i =>
    match i.command with
    | .showHelp => ⟨.ok 0, [.out top.help], w.disk⟩
    | .bundle files lang output => runBundle w i.verbose files lang output
    | .run files lang version stdin => runRemote w i.verbose files lang version stdin

end Amalgam.Cli
