import Amalgam.Report.Diagnostic
import Amalgam.Source.File
import Amalgam.Text.Spelling
import Amalgam.Json.Check

/-!
# Requests

A request names a language and carries files; a compiler version and a text for standard input may
be given.  The files are checked first, then the other fields in their order.
-/

set_option autoImplicit false

namespace Amalgam

/-- Why a request or a list of files is refused. -/
inductive InputError where
  /-- The files are no list but a value of this kind. -/
  | notList (kind : String)
  /-- The file at this position is no record of a name and a content. -/
  | badFile (position : Nat) (reason : Reason)
  /-- The request is no object but a value of this kind. -/
  | notObject (kind : String)
  | badField (error : FieldError)
  deriving DecidableEq, Repr

/-- The report of an input error. -/
def InputError.diagnostic : InputError → Diagnostic
  | .notList kind =>
    { kind := .input
      message := "Expected a list of files, got " ++ kind
      hint := some "Pass files as [\x7b\"name\": \"main.cpp\", \"content\": \"...\"\x7d]" }
  | .badFile position reason =>
    { kind := .input
      message :=
        "File #" ++ toString position ++ " is not a name/content record: " ++ reason.message
      hint := some "Every file needs a string 'name' and a string 'content'" }
  | .notObject kind =>
    { kind := .input
      message := "Expected a request object, got " ++ kind }
  | .badField e =>
    { kind := .input
      message := "Invalid request field '" ++ e.field ++ "': " ++ e.reason.message }

/-- A file as a request carries it. -/
structure FileRecord where
  name : Text
  content : Text
  deriving DecidableEq, Repr

/-- A file as a record. -/
def TextFile.record (file : TextFile) : FileRecord := ⟨file.name, file.content⟩

/-- The file of a record in this spelling. -/
def Spelling.file (s : Spelling) (r : FileRecord) : TextFile := ⟨s.spell r.name, s.spell r.content⟩

/-- The record of a file in this spelling. -/
def Spelling.record (s : Spelling) (file : TextFile) : FileRecord :=
  ⟨s.read file.name, s.read file.content⟩

namespace FileRecord

/-- The spelling that records need. -/
def spelling (records : List FileRecord) : Spelling :=
  .of (records.flatMap fun r => [r.name, r.content])

/-- The record that a value is. -/
def ofValue : Value → Except Reason FileRecord
  | .object fields => do
    let name ← Value.requireField fields "name" Value.asText
    let content ← Value.requireField fields "content" Value.asText
    return ⟨name, content⟩
  | _ => .error .notRecord

end FileRecord

/-- What may stand in a list of files: a value that has to be checked, or a file that was checked
before. -/
inductive FileItem where
  | value (v : Value)
  | checked (file : FileRecord)

/-- The file of an item.  A file that was checked before is not checked again. -/
def FileItem.file : FileItem → Except Reason FileRecord
  | .value v => FileRecord.ofValue v
  | .checked file => .ok file

/-- The items of a value, which must be a list. -/
def fileItems : Value → Except InputError (List FileItem)
  | .list items => .ok (items.map .value)
  | v => .error (.notList v.kind)

/-- The files of items, the first of which has this position. -/
def filesFrom : (position : Nat) → List FileItem → Except InputError (List FileRecord)
  | _, [] => .ok []
  | position, item :: items =>
    match item.file with
    | .error reason => .error (.badFile position reason)
    | .ok file => (filesFrom (position + 1) items).map (file :: ·)

/-- A list of files. -/
def filesOfValue (v : Value) : Except InputError (List FileRecord) :=
  match fileItems v with
  | .error e => .error e
  | .ok items => filesFrom 0 items

/-- A program to run. -/
structure Request where
  language : Text
  version : Option Text
  stdin : Option Text
  files : List FileRecord
  deriving DecidableEq, Repr

namespace Request

/-- The fields of a request beside its files. -/
def ofFields (fields : Fields) (files : List FileRecord) :
    Except FieldError Request := do
  let language ← Value.checkField fields "language" Value.asText ""
  let version ← Value.checkField fields "version" Value.asOptionalText none
  let stdin ← Value.checkField fields "stdin" Value.asOptionalText none
  return ⟨language, version, stdin, files⟩

/-- A request. -/
def ofValue : Value → Except InputError Request
  | .object fields =>
    match filesOfValue ((Value.lookup fields "files").getD (.list [])) with
    | .error e => .error e
    | .ok files => (ofFields fields files).mapError .badField
  | v => .error (.notObject v.kind)

end Request

end Amalgam
