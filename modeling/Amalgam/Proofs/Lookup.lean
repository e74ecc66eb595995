import Amalgam.Proofs.Directive
import Amalgam.Source.Index

/-!
# Laws of looking up an include

* `Index.byName?_of_target?` — the file that an include means is the last one of its own name, also
  when it was found by its basename.
* `Index.Holds.eq` — so a name stands for one file, whatever include it was reached by.
-/

set_option autoImplicit false

namespace Amalgam

theorem mem_of_findLast? {α : Type} {p : α → Bool} {xs : List α} {x : α}
    (h : findLast? p xs = some x) :
    x ∈ xs ∧ p x = true :=
  ⟨List.mem_reverse.mp (List.mem_of_find?_eq_some h), List.find?_some h⟩

/-- The last element with a property is also the last one with a narrower property that it has. -/
theorem findLast?_eq_of_imp {α : Type} {p q : α → Bool} {xs : List α} {x : α}
    (h : findLast? p xs = some x) (hq : q x = true) (himp : ∀ y, q y = true → p y = true) :
    findLast? q xs = some x := by
  unfold findLast? at h ⊢
  rw [List.find?_eq_some_iff_append] at h ⊢
  obtain ⟨hp, before, after, hxs, hbefore⟩ := h
  refine ⟨hq, before, after, hxs, ?_⟩
  intro y hy
  have hpy := hbefore y hy
  cases hqy : q y with
  | false => rfl
  | true => rw [himp y hqy] at hpy; cases hpy

namespace Index

variable {index : Index}

/-! ## Names -/

/-- A file that an include means is meant by its own name. -/
theorem byName?_of_target? {name : String} {p : Placed} (h : index.target? name = some p) :
    index.byName? p.file.name = some p := by
  unfold target? at h
  rcases Option.or_eq_some_iff.mp h with h | ⟨-, h⟩
  · have hname : p.file.name = name := by simpa using (mem_of_findLast? h).2
    rw [hname]
    exact h
  · -- a later file of the same name would have the same basename
    refine findLast?_eq_of_imp h (by simp) ?_
    intro q hq
    have hbase : basename p.file.name = basename name := by simpa using (mem_of_findLast? h).2
    have hqp : q.file.name = p.file.name := by simpa using hq
    simp [hqp, hbase]

/-! ## Includes -/

/-- The file that a line includes, if the line is an include of a known one. -/
def included? (index : Index) (line : Line) : Option TextFile :=
  (quotedInclude? line).bind fun name => (index.target? name).map (·.file)

/-- The file that is meant by its own name: the last one of that name. -/
def Holds (index : Index) (file : TextFile) : Prop :=
  (index.byName? file.name).map (·.file) = some file

theorem exists_of_included? {line : Line} {file : TextFile} (h : index.included? line = some file) :
    ∃ name p, quotedInclude? line = some name ∧ index.target? name = some p ∧ p.file = file := by
  unfold included? at h
  obtain ⟨name, hname, h⟩ := Option.bind_eq_some_iff.mp h
  obtain ⟨p, hp, rfl⟩ := Option.map_eq_some_iff.mp h
  exact ⟨name, p, hname, hp, rfl⟩

theorem holds_of_included? {line : Line} {file : TextFile} (h : index.included? line = some file) :
    index.Holds file := by
  obtain ⟨name, p, -, hp, rfl⟩ := exists_of_included? h
  unfold Holds
  rw [byName?_of_target? hp]
  rfl

/-- Two files that are meant by one name are one file. -/
theorem Holds.eq {file file' : TextFile} (h : index.Holds file) (h' : index.Holds file')
    (hname : file.name = file'.name) : file = file' := by
  unfold Holds at h h'
  rw [hname, h'] at h
  exact (Option.some.inj h).symm

theorem Holds.mem {file : TextFile} (h : index.Holds file) : ∃ p ∈ index.files, p.file = file := by
  obtain ⟨p, hp, rfl⟩ := Option.map_eq_some_iff.mp h
  exact ⟨p, (mem_of_findLast? hp).1, rfl⟩

@[simp] theorem included?_blankPragmaLine (line : Line) :
    index.included? (blankPragmaLine line) = index.included? line := by
  unfold included?
  rw [quotedInclude?_blankPragmaLine]

end Index

end Amalgam
