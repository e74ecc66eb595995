import Amalgam.Source.Index
import Amalgam.Unit.Row

/-!
# Expanding includes

A quoted include of a known file is replaced by the file's text, in which includes are expanded in
turn.  A header is inlined once: a later include of it leaves a comment.  An include of a header
that is just being expanded leaves a comment of its own.  Files that lie deeper than a limit are
copied as they are.

Each header that is inlined is a new one, so blocks nest at most as deep as there are files.
`expandAt` recurs on a bound for this depth; `expand` starts it with the number of files.
-/

set_option autoImplicit false

namespace Amalgam

/-- Where an expansion stands. -/
structure Context where
  depth : Int
  /-- The headers being expanded, outermost first. -/
  chain : List String
  /-- The headers inlined so far. -/
  inlined : List String
  limit : Int
  deriving DecidableEq, Repr

namespace Context

/-- The limit that holds when none is given. -/
def defaultLimit : Int := 32

/-- The context in which nothing has been expanded. -/
def fresh (limit : Int) : Context := ⟨0, [], [], limit⟩

/-- The context inside the header `key`. -/
def enter (ctx : Context) (key : String) : Context :=
  { ctx with depth := ctx.depth + 1, chain := ctx.chain ++ [key] }

end Context

/-- What becomes of an include. -/
inductive Resolution where
  | unknown
  | recursive (key : String)
  | duplicate (key : String)
  | inline (file : TextFile)

/-- What becomes of an include of `name`. -/
def resolve (index : Index) (chain inlined : List String) (name : String) : Resolution :=
  match index.target? name with
  | none => .unknown
  | some target =>
    if target.file.name ∈ chain then .recursive target.file.name
    else if target.file.name ∈ inlined then .duplicate target.file.name
    else .inline target.file

/-- Rows, and the headers inlined when they have been put out. -/
structure Expanded where
  rows : List Row
  inlined : List String
  deriving DecidableEq, Repr

/-- The rows of lines that are copied as they are, the first of which has this number. -/
def copyRows (origin : String) : (number : Nat) → List Line → List Row
  | _, [] => []
  | number, line :: lines =>
    .source origin number (.plain line) :: copyRows origin (number + 1) lines

/-- The lines of a header. -/
def headerLines (file : TextFile) : List Line := splitLines (blankPragmaOnce file.content.toList)

/-- The rows of a header that is inlined at line `number` of `origin`. -/
def blockRows (origin : String) (number : Nat) (key : String) (body : List Row) : List Row :=
  .openBlock key :: .lineIs 1 key :: (Row.complete body ++
    [.closeBlock key, .lineIs (number + 1) origin])

/-- The rows of one line; `inside` expands a header, given the headers inlined up to it. -/
def expandLine (index : Index) (chain : List String) (origin : String)
    (inside : TextFile → List String → Expanded) (number : Nat) (line : Line)
    (inlined : List String) : Expanded :=
  match quotedInclude? line with
  | none => ⟨[.source origin number (.plain line)], inlined⟩
  | some name =>
    match resolve index chain inlined name with
    | .unknown => ⟨[.source origin number (.unresolved line name)], inlined⟩
    | .recursive key => ⟨[.source origin number (.recursive key)], inlined⟩
    | .duplicate key => ⟨[.source origin number (.duplicate key)], inlined⟩
    | .inline file =>
      let body := inside file (inlined ++ [file.name])
      ⟨blockRows origin number file.name body.rows, body.inlined⟩

/-- The rows of the lines of `origin` from line `number` on. -/
def expandLines (index : Index) (chain : List String) (origin : String)
    (inside : TextFile → List String → Expanded) :
    (number : Nat) → List Line → List String → Expanded
  | _, [], inlined => ⟨[], inlined⟩
  | number, line :: lines, inlined =>
    let here := expandLine index chain origin inside number line inlined
    let later := expandLines index chain origin inside (number + 1) lines here.inlined
    ⟨here.rows ++ later.rows, later.inlined⟩

/-- The rows of the lines of `origin`, with blocks nested at most `levels` deep. -/
def expandAt (index : Index) : (levels : Nat) → Context → (origin : String) → List Line → Expanded
  | levels, ctx, origin, lines =>
    if ctx.limit < ctx.depth then
      ⟨.tooDeep ctx.limit origin :: copyRows origin 1 lines, ctx.inlined⟩
    else
      let inside : TextFile → List String → Expanded :=
        match levels with
        | 0 => fun _ inlined => ⟨[], inlined⟩
        | levels + 1 => fun file inlined =>
          expandAt index levels { ctx.enter file.name with inlined := inlined } file.name
            (headerLines file)
      expandLines index ctx.chain origin inside 1 lines ctx.inlined

/-- The rows of the text `code` of the file `origin`. -/
def expand (index : Index) (ctx : Context) (origin code : String) : Expanded :=
  expandAt index index.files.length ctx origin (splitLines code.toList)

end Amalgam
