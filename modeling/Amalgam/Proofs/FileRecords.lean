import Amalgam.Remote.Request
import Mathlib.Data.List.Forall2

/-!
# Which lists of files are accepted

A value is accepted as a list of files exactly if it lists records of a name and a content, and
otherwise the error says what is wrong with it first.  Both are given here as relations that do not
mention the checks.

* `Value.Describes`, `Value.ListsFiles` — the file, and the files, that a value stands for.
* `Value.NoFile`, `Value.NoFiles` — what is wrong with a value, and the reason or error that says
  so.
* `FirstRefused` — the least position at which something is refused.
* `filesOfValue_eq_ok_iff`, `filesOfValue_eq_error_iff` — the check of a list of files follows the
  relations.
* `filesFrom_checked` — files that were checked are accepted again, as they are.
-/

set_option autoImplicit false

namespace Amalgam

/-! ## Checks one after another -/

section Bind

variable {ε α β : Type} {x : Except ε α} {f : α → Except ε β}

theorem bind_eq_ok_iff {b : β} : (x >>= f) = .ok b ↔ ∃ a, x = .ok a ∧ f a = .ok b := by
  cases x with
  | error e => exact ⟨nofun, fun ⟨_, h, _⟩ => nomatch h⟩
  | ok a =>
    constructor
    · intro h
      exact ⟨a, rfl, h⟩
    · rintro ⟨_, h, hb⟩
      cases h
      exact hb

theorem bind_eq_error_iff {e : ε} :
    (x >>= f) = .error e ↔ x = .error e ∨ ∃ a, x = .ok a ∧ f a = .error e := by
  cases x with
  | error e' =>
    constructor
    · intro h
      cases h
      exact Or.inl rfl
    · rintro (h | ⟨_, h, _⟩)
      · cases h
        rfl
      · cases h
  | ok a =>
    constructor
    · intro h
      exact Or.inr ⟨a, rfl, h⟩
    · rintro (h | ⟨_, h, he⟩)
      · cases h
      · cases h
        exact he

theorem eq_ok_of_toOption {a : α} (h : x.toOption = some a) : x = .ok a := by
  cases x with
  | error e => cases h
  | ok b => rw [Option.some.inj h]

theorem mapError_ok {ε' : Type} (g : ε → ε') (a : α) :
    (Except.ok a : Except ε α).mapError g = .ok a := rfl

theorem mapError_error {ε' : Type} (g : ε → ε') (e : ε) :
    (Except.error e : Except ε α).mapError g = .error (g e) := rfl

end Bind

/-! ## The first that is refused -/

/-- The least position of a list at which something is refused, what stands there, and why it is
refused. -/
structure FirstRefused {α : Type} (Refused : α → Reason → Prop) (list : List α) (position : Nat)
    (item : α) (reason : Reason) : Prop where
  stands : list[position]? = some item
  refused : Refused item reason
  least : ∀ earlier < position, ∀ other, list[earlier]? = some other → ∀ why, ¬ Refused other why

section FirstRefused

variable {α : Type} {Refused : α → Reason → Prop} {position : Nat} {item : α} {reason : Reason}

theorem not_firstRefused_nil : ¬ FirstRefused Refused [] position item reason := by
  intro h
  simpa using h.stands

/-- The first that is refused is at the head of a list, or the head is accepted and it is the first
behind it. -/
theorem firstRefused_cons_iff {a : α} {list : List α} :
    FirstRefused Refused (a :: list) position item reason ↔
      (position = 0 ∧ item = a ∧ Refused a reason) ∨
      ∃ behind, position = behind + 1 ∧ (∀ why, ¬ Refused a why) ∧
        FirstRefused Refused list behind item reason := by
  constructor
  · rintro ⟨hstands, hrefused, hleast⟩
    cases position with
    | zero =>
      obtain rfl : a = item := by simpa using hstands
      exact Or.inl ⟨rfl, rfl, hrefused⟩
    | succ behind =>
      have hhead : ∀ why, ¬ Refused a why := hleast 0 (by omega) a (by simp)
      refine Or.inr ⟨behind, rfl, hhead, by simpa using hstands, hrefused, ?_⟩
      intro earlier hearlier other hother
      exact hleast (earlier + 1) (by omega) other (by simpa using hother)
  · rintro (⟨rfl, rfl, hrefused⟩ | ⟨behind, rfl, hhead, hstands, hrefused, hleast⟩)
    · exact ⟨by simp, hrefused, fun earlier hearlier => by omega⟩
    · refine ⟨by simpa using hstands, hrefused, ?_⟩
      intro earlier hearlier other hother
      cases earlier with
      | zero =>
        obtain rfl : a = other := by simpa using hother
        exact hhead
      | succ earlier => exact hleast earlier (by omega) other (by simpa using hother)

theorem firstRefused_map_iff {β : Type} {f : β → α} {list : List β} :
    FirstRefused Refused (list.map f) position item reason ↔
      ∃ b, item = f b ∧ FirstRefused (fun b => Refused (f b)) list position b reason := by
  constructor
  · rintro ⟨hstands, hrefused, hleast⟩
    obtain ⟨b, hb, rfl⟩ : ∃ b, list[position]? = some b ∧ f b = item := by simpa using hstands
    refine ⟨b, rfl, hb, hrefused, ?_⟩
    intro earlier hearlier other hother
    exact hleast earlier hearlier (f other) (by simp [hother])
  · rintro ⟨b, rfl, hstands, hrefused, hleast⟩
    refine ⟨by simp [hstands], hrefused, ?_⟩
    intro earlier hearlier other hother
    obtain ⟨b', hb', rfl⟩ : ∃ b', list[earlier]? = some b' ∧ f b' = other := by simpa using hother
    exact hleast earlier hearlier b' hb'

/-- One field is judged before others: the error names the first of them that is refused. -/
theorem bind_eq_error_iff_first {α β γ : Type} {Refused : α → Reason → Prop} {nameOf : α → String}
    {field : α} {later : List α} {x : Except FieldError β} {rest : β → Except FieldError γ}
    {e : FieldError} (hfield : ∀ e, x = .error e ↔
      ∃ reason, Refused field reason ∧ e = ⟨nameOf field, reason⟩)
    (hrest : ∀ b, rest b = .error e ↔
      ∃ position item reason, FirstRefused Refused later position item reason ∧
        e = ⟨nameOf item, reason⟩) :
    (x >>= rest) = .error e ↔ ∃ position item reason,
      FirstRefused Refused (field :: later) position item reason ∧ e = ⟨nameOf item, reason⟩ := by
  simp only [bind_eq_error_iff, hrest, hfield, firstRefused_cons_iff]
  constructor
  · rintro (⟨reason, hrefuses, rfl⟩ | ⟨b, hok, behind, item, reason, hfirst, rfl⟩)
    · exact ⟨0, _, reason, Or.inl ⟨rfl, rfl, hrefuses⟩, rfl⟩
    · have haccepted : ∀ why, ¬ Refused field why := by
        intro why hrefuses
        cases hok.symm.trans ((hfield _).mpr ⟨why, hrefuses, rfl⟩)
      exact ⟨behind + 1, item, reason, Or.inr ⟨behind, rfl, haccepted, hfirst⟩, rfl⟩
  · rintro ⟨_, item, reason, ⟨-, rfl, hrefuses⟩ | ⟨behind, -, haccepted, hfirst⟩, rfl⟩
    · exact Or.inl ⟨reason, hrefuses, rfl⟩
    · cases hcase : x with
      | error e' =>
        obtain ⟨why, hrefuses, -⟩ := (hfield e').mp hcase
        exact absurd hrefuses (haccepted why)
      | ok b => exact Or.inr ⟨b, rfl, behind, item, reason, hfirst, rfl⟩

end FirstRefused

namespace Value

/-! ## Texts -/

/-- Why a value is no text. -/
inductive NoText : Value → Reason → Prop where
  | notText {v : Value} (h : ∀ t, v ≠ .text t) : NoText v .notText

theorem asText_eq_ok_iff {v : Value} {t : Text} : v.asText = .ok t ↔ v = .text t := by
  cases v <;> simp [asText]

theorem asText_eq_error_iff {v : Value} {reason : Reason} :
    v.asText = .error reason ↔ v.NoText reason := by
  cases v with
  | text t => exact ⟨nofun, fun ⟨h⟩ => absurd rfl (h t)⟩
  | null | bool | int | real | list | object =>
    constructor
    · intro h
      cases h
      exact .notText (by simp)
    · intro h
      cases h
      rfl

/-- The text or nothing that a value stands for. -/
inductive TextOrNull : Value → Option Text → Prop where
  | null : TextOrNull .null none
  | text (t : Text) : TextOrNull (.text t) (some t)

/-- Why a value is neither a text nor null. -/
def NoTextOrNull (v : Value) (reason : Reason) : Prop := v ≠ .null ∧ v.NoText reason

theorem asOptionalText_of_ne_null {v : Value} (h : v ≠ .null) :
    v.asOptionalText = v.asText.map some := by
  cases v with
  | null => exact absurd rfl h
  | text | bool | int | real | list | object => rfl

theorem asOptionalText_eq_ok_iff {v : Value} {o : Option Text} :
    v.asOptionalText = .ok o ↔ v.TextOrNull o := by
  constructor
  · intro h
    cases v with
    | null => cases h; exact .null
    | text t => cases h; exact .text t
    | bool | int | real | list | object => cases h
  · intro h
    cases h <;> rfl

theorem asOptionalText_eq_error_iff {v : Value} {reason : Reason} :
    v.asOptionalText = .error reason ↔ v.NoTextOrNull reason := by
  by_cases hnull : v = .null
  · subst hnull
    exact ⟨nofun, fun h => absurd rfl h.1⟩
  · rw [asOptionalText_of_ne_null hnull, NoTextOrNull, ← asText_eq_error_iff]
    cases v.asText with
    | error => simp [Except.map, hnull]
    | ok => simp [Except.map]

/-! ## Files -/

/-- The value is a record of the file. -/
def Describes (v : Value) (file : FileRecord) : Prop :=
  ∃ fields, v = .object fields ∧ lookup fields "name" = some (.text file.name) ∧
    lookup fields "content" = some (.text file.content)

/-- Why an object has no text in a field. -/
inductive LacksText (fields : Fields) (name : String) : Reason → Prop where
  | absent (h : lookup fields name = none) : LacksText fields name .missing
  | given {v : Value} {reason : Reason} (h : lookup fields name = some v) (hv : v.NoText reason) :
      LacksText fields name reason

/-- Why a value is a record of no file.  The name is judged before the content. -/
inductive NoFile : Value → Reason → Prop where
  | notObject {v : Value} (h : ∀ fields, v ≠ .object fields) : NoFile v .notRecord
  | name {fields : Fields} {reason : Reason} (h : LacksText fields "name" reason) :
      NoFile (.object fields) reason
  | content {fields : Fields} {t : Text} {reason : Reason}
      (hname : lookup fields "name" = some (.text t)) (h : LacksText fields "content" reason) :
      NoFile (.object fields) reason

theorem requireField_eq_ok_iff {fields : Fields} {name : String} {t : Text} :
    requireField fields name asText = .ok t ↔ lookup fields name = some (.text t) := by
  unfold requireField
  cases lookup fields name with
  | none => simp
  | some v => simp [asText_eq_ok_iff]

theorem requireField_eq_error_iff {fields : Fields} {name : String} {reason : Reason} :
    requireField fields name asText = .error reason ↔ LacksText fields name reason := by
  unfold requireField
  constructor
  · intro h
    cases hlookup : lookup fields name with
    | none =>
      rw [hlookup] at h
      cases h
      exact .absent hlookup
    | some v =>
      rw [hlookup] at h
      exact .given hlookup (asText_eq_error_iff.mp h)
  · intro h
    cases h with
    | absent h => rw [h]
    | given h hv =>
      rw [h]
      exact asText_eq_error_iff.mpr hv

end Value

open Value

namespace FileRecord

theorem ofValue_object (fields : Fields) :
    ofValue (.object fields) =
      (requireField fields "name" asText >>= fun name =>
        requireField fields "content" asText >>= fun content => .ok ⟨name, content⟩) := rfl

theorem ofValue_eq_ok_iff {v : Value} {file : FileRecord} :
    ofValue v = .ok file ↔ v.Describes file := by
  cases v with
  | null | bool | int | real | text | list => simp [ofValue, Describes]
  | object fields =>
    simp only [ofValue_object, bind_eq_ok_iff, requireField_eq_ok_iff]
    constructor
    · rintro ⟨name, hname, content, hcontent, hfile⟩
      cases hfile
      exact ⟨fields, rfl, hname, hcontent⟩
    · rintro ⟨_, hfields, hname, hcontent⟩
      cases hfields
      exact ⟨_, hname, _, hcontent, rfl⟩

theorem ofValue_eq_error_iff {v : Value} {reason : Reason} :
    ofValue v = .error reason ↔ v.NoFile reason := by
  cases v with
  | null | bool | int | real | text | list =>
    constructor
    · intro h
      cases h
      exact .notObject (by simp)
    · intro h
      cases h
      rfl
  | object fields =>
    simp only [ofValue_object, bind_eq_error_iff, requireField_eq_error_iff, requireField_eq_ok_iff]
    constructor
    · rintro (hname | ⟨name, hname, hcontent | ⟨content, -, hok⟩⟩)
      · exact .name hname
      · exact .content hname hcontent
      · cases hok
    · intro h
      cases h with
      | notObject h => exact absurd rfl (h fields)
      | name h => exact Or.inl h
      | content hname h => exact Or.inr ⟨_, hname, Or.inl h⟩

end FileRecord

theorem filesFrom_eq_ok_iff {items : List FileItem} {position : Nat} {files : List FileRecord} :
    filesFrom position items = .ok files ↔
      List.Forall₂ (fun item file => item.file = .ok file) items files := by
  induction items generalizing position files with
  | nil => simp [filesFrom, eq_comm]
  | cons item items ih =>
    rw [filesFrom, List.forall₂_cons_left_iff]
    cases hitem : item.file with
    | error reason => simp
    | ok file =>
      cases hrest : filesFrom (position + 1) items with
      | error e =>
        have hnone : ∀ rest, ¬ List.Forall₂ (fun item file => item.file = .ok file) items rest := by
          intro rest hall
          cases hrest.symm.trans (ih.mpr hall)
        simp [Except.map, hnone]
      | ok rest =>
        constructor
        · intro h
          cases h
          exact ⟨file, rest, rfl, ih.mp hrest, rfl⟩
        · rintro ⟨_, others, hfile, hall, rfl⟩
          cases hfile
          cases hrest.symm.trans (ih.mpr hall)
          rfl

theorem filesFrom_eq_error_iff {items : List FileItem} {position : Nat} {e : InputError} :
    filesFrom position items = .error e ↔ ∃ behind item reason,
      FirstRefused (fun item reason => item.file = .error reason) items behind item reason ∧
        e = .badFile (position + behind) reason := by
  induction items generalizing position with
  | nil => simp [filesFrom, not_firstRefused_nil]
  | cons first items ih =>
    simp only [filesFrom, firstRefused_cons_iff]
    cases hfirst : first.file with
    | error reason =>
      constructor
      · intro h
        cases h
        exact ⟨0, first, reason, Or.inl ⟨rfl, rfl, rfl⟩, rfl⟩
      · rintro ⟨_, _, _, ⟨rfl, rfl, hreason⟩ | ⟨_, _, haccepted, _⟩, rfl⟩
        · cases hreason
          rfl
        · exact absurd rfl (haccepted reason)
    | ok file =>
      have hmap : (filesFrom (position + 1) items).map (file :: ·) = .error e ↔
          filesFrom (position + 1) items = .error e := by
        cases filesFrom (position + 1) items <;> simp [Except.map]
      simp only [hmap, ih]
      constructor
      · rintro ⟨behind, item, reason, hrefused, rfl⟩
        exact ⟨behind + 1, item, reason, Or.inr ⟨behind, rfl, nofun, hrefused⟩, by congr 1; omega⟩
      · rintro ⟨_, item, reason, ⟨_, _, hreason⟩ | ⟨behind, rfl, _, hrefused⟩, rfl⟩
        · cases hreason
        · exact ⟨behind, item, reason, hrefused, by congr 1; omega⟩

/-- Files that were checked before are accepted as they are. -/
theorem filesFrom_checked (files : List FileRecord) (position : Nat) :
    filesFrom position (files.map .checked) = .ok files := by
  rw [filesFrom_eq_ok_iff, List.forall₂_map_left_iff]
  exact List.forall₂_same.mpr fun file _ => rfl

namespace Value

/-- The value is a list of records of the files, in their order. -/
def ListsFiles (v : Value) (files : List FileRecord) : Prop :=
  ∃ items, v = .list items ∧ List.Forall₂ Describes items files

/-- What is wrong with a value that is no list of files. -/
inductive NoFiles : Value → InputError → Prop where
  | notList {v : Value} (h : ∀ items, v ≠ .list items) : NoFiles v (.notList v.kind)
  | badFile {items : List Value} {position : Nat} {item : Value} {reason : Reason}
      (h : FirstRefused NoFile items position item reason) :
      NoFiles (.list items) (.badFile position reason)

end Value

theorem filesOfValue_of_not_list {v : Value} (h : ∀ items, v ≠ .list items) :
    filesOfValue v = .error (.notList v.kind) := by
  cases v with
  | list items => exact absurd rfl (h items)
  | null | bool | int | real | text | object => rfl

theorem filesOfValue_eq_ok_iff {v : Value} {files : List FileRecord} :
    filesOfValue v = .ok files ↔ v.ListsFiles files := by
  by_cases hlist : ∃ items, v = .list items
  · obtain ⟨items, rfl⟩ := hlist
    show filesFrom 0 (items.map .value) = .ok files ↔ _
    rw [filesFrom_eq_ok_iff, List.forall₂_map_left_iff]
    simp [ListsFiles, FileItem.file, FileRecord.ofValue_eq_ok_iff]
  · rw [filesOfValue_of_not_list fun items h => hlist ⟨items, h⟩]
    exact ⟨nofun, fun ⟨items, h, _⟩ => absurd ⟨items, h⟩ hlist⟩

theorem filesOfValue_eq_error_iff {v : Value} {e : InputError} :
    filesOfValue v = .error e ↔ v.NoFiles e := by
  by_cases hlist : ∃ items, v = .list items
  · obtain ⟨items, rfl⟩ := hlist
    show filesFrom 0 (items.map .value) = .error e ↔ _
    simp only [filesFrom_eq_error_iff, firstRefused_map_iff, FileItem.file,
      FileRecord.ofValue_eq_error_iff, Nat.zero_add]
    constructor
    · rintro ⟨position, _, reason, ⟨item, rfl, hrefused⟩, rfl⟩
      exact .badFile hrefused
    · intro h
      cases h with
      | notList h => exact absurd rfl (h items)
      | badFile h => exact ⟨_, _, _, ⟨_, rfl, h⟩, rfl⟩
  · have hnot : ∀ items, v ≠ .list items := fun items h => hlist ⟨items, h⟩
    rw [filesOfValue_of_not_list hnot]
    constructor
    · intro h
      cases h
      exact .notList hnot
    · intro h
      cases h with
      | notList => rfl
      | badFile => exact absurd rfl (hnot _)

end Amalgam
