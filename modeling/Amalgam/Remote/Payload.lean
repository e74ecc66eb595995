import Amalgam.Remote.Request
import Amalgam.Remote.Settings
import Amalgam.Source.Language
import Amalgam.Unit.Bundle

/-!
# What is sent

Several files in C or C++ are sent as one bundle; anything else is sent as it is.  `filesToSend` and
`Request.payload` say what is made of files and requests.  A program has room for only so many
headers inside each other, and `filesWithin` and `Request.payloadWithin` fail where more are needed.
-/

set_option autoImplicit false

namespace Amalgam

/-- Whether so many files in a language are bundled. -/
def needsBundling (language : String) (count : Nat) : Bool :=
  Language.isBundled (Language.tag language) && 1 < count

/-- As `needsBundling`, for values: the files need a size if the language is a bundled one. -/
def needsBundlingValue (language files : Value) : Except Fault Bool :=
  if Language.isBundled (Language.ofValue language) then
    match files.size? with
    | some n => .ok (1 < n)
    | none => .error (.noSize files.kind)
  else .ok false

/-- That files are bundled. -/
def bundlingNotice (tag : String) (count : Nat) : Notice :=
  .debug ("Bundling " ++ toString count ++ " " ++ tag ++ " file(s) into one translation unit")

/-- The files that are sent: one bundle, or the files as they are. -/
def filesToSend (s : Spelling) (language : String) (files : List TextFile) (limit : Int) :
    Told (List TextFile) :=
  let tag := Language.tag language
  if needsBundling tag files.length then
    let bundle := Bundle.ofFiles tag files limit
    ⟨[bundle.file tag], bundlingNotice tag files.length :: bundle.notices s⟩
  else
    ⟨files, [.debug ("Passing " ++ toString files.length ++
      " file(s) through unchanged (language '" ++ tag ++ "')")]⟩

/-- What is told until a header has to be inlined inside `levels` others, if one has to. -/
def noticesBeyond? (levels : Nat) (s : Spelling) (language : String) (files : List TextFile)
    (limit : Int) : Option (List Notice) :=
  let tag := Language.tag language
  if needsBundling tag files.length then
    ((Bundle.ofFiles tag files limit).noticesBeyond? levels s).map
      (bundlingNotice tag files.length :: ·)
  else none

/-- A value that is not come to if headers nest too deep before: what is told until then is
given. -/
def Told.unlessBeyond {α : Type} (beyond : Option (List Notice)) (t : Told α) :
    Told (Except Fault α) :=
  match beyond with
  | some notices => ⟨.error .nestedTooDeep, notices⟩
  | none => ⟨.ok t.value, t.notices⟩

/-- The files that are sent, if there is room for `levels` headers inside each other. -/
def filesWithin (levels : Nat) (s : Spelling) (language : String) (files : List TextFile)
    (limit : Int) :
    Told (Except Fault (List TextFile)) :=
  (filesToSend s language files limit).unlessBeyond (noticesBeyond? levels s language files limit)

/-- The records that are sent for records. -/
def recordsToSend (language : String) (records : List FileRecord) (limit : Int) :
    Told (List FileRecord) :=
  let s := FileRecord.spelling records
  let sent := filesToSend s language (records.map s.file) limit
  ⟨sent.value.map s.record, sent.notices⟩

/-- Checks files and gives those that are sent for them, in a language named by any value. -/
def prepareFiles (language : Value) (items : List FileItem) (limit : Int) :
    Except InputError (Told (List FileRecord)) :=
  (filesFrom 0 items).map fun files => recordsToSend language.displayOrEmpty files limit

/-- A record as it is sent. -/
def FileRecord.toValue (r : FileRecord) : Value :=
  .object [(.proper "name", .text r.name), (.proper "content", .text r.content)]

namespace Request

/-- The tag of the language, as it decides and as messages show it. -/
def tag (r : Request) : String := Language.tag r.language.display

/-- The compiler version that is asked for; an empty one stands for the default. -/
def versionOr (r : Request) (default : Text) : Text :=
  match r.version with
  | none => default
  | some v => if v.isEmpty then default else v

/-- What is sent for a request. -/
def payload (r : Request) (settings : Settings) : Told Value :=
  let prepared := recordsToSend r.tag r.files settings.includeLimit
  let fields : Fields :=
    [("language", .text (Language.tagOfText r.language)),
      ("version", .text (r.versionOr settings.version)),
      ("files", .list (prepared.value.map FileRecord.toValue))]
  let stdin : Fields := match r.stdin with
    | none => []
    | some s => [("stdin", .text s)]
  ⟨.object (fields ++ stdin), prepared.notices⟩

/-- What is sent for a request, if there is room for `levels` headers inside each other. -/
def payloadWithin (levels : Nat) (r : Request) (settings : Settings) : Told (Except Fault Value) :=
  let s := FileRecord.spelling r.files
  (r.payload settings).unlessBeyond
    (noticesBeyond? levels s r.tag (r.files.map s.file) settings.includeLimit)

end Request

end Amalgam
