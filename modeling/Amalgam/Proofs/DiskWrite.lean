import Amalgam.Disk

/-!
# Reading what was written

* `Disk.node?_put_self`, `Disk.node?_put_of_ne` — a node that is put stands at its place, and what
  stood elsewhere stays.
* `Disk.walk_put` — a walk to a directory is not changed by a file that is put where there is no
  directory.
* `Disk.node?_put_below` — what is put below a directory changes nothing elsewhere.
* `Disk.read_write` — a file that was written is read back.
* `Disk.sameBut_write` — a write changes the place that its path leads to, and no other.
-/

set_option autoImplicit false

namespace Amalgam.Disk

variable {disk : Disk}

/-! ## Nodes -/

/-- The entries with another node at a place that one of them has. -/
theorem find?_replace {place : List String} {node : Node} {entries : List (List String × Node)}
    (h : (entries.any fun e => e.1 == place) = true) :
    ((entries.map fun e => if e.1 == place then (place, node) else e).find? fun e => e.1 == place) =
      some (place, node) := by
  induction entries with
  | nil => cases h
  | cons e entries ih =>
    by_cases he : e.1 = place
    · simp [he]
    · have hlater : (entries.any fun e => e.1 == place) = true := by simpa [he] using h
      simpa [he] using ih hlater

theorem find?_put_self (place : List String) (node : Node) :
    ((disk.put place node).entries.find? fun e => e.1 == place) = some (place, node) := by
  unfold put
  split
  · rename_i hany
    exact find?_replace hany
  · rename_i hany
    have hnone : (disk.entries.find? fun e => e.1 == place) = none := by
      rw [List.find?_eq_none]
      intro e he heq
      exact hany (List.any_eq_true.mpr ⟨e, he, heq⟩)
    simp [hnone]

theorem find?_put_of_ne {place p : List String} (hne : p ≠ place) (node : Node) :
    ((disk.put place node).entries.find? fun e => e.1 == p) =
      disk.entries.find? fun e => e.1 == p := by
  have hother : ¬ place = p := fun heq => hne heq.symm
  unfold put
  split
  · show (List.map _ disk.entries).find? _ = _
    generalize disk.entries = entries
    induction entries with
    | nil => rfl
    | cons e entries ih =>
      by_cases he : e.1 = place
      · simpa [he, hother] using ih
      · by_cases hp : e.1 = p
        · simp [hp, hne]
        · simpa [he, hp] using ih
  · simp [hother]

/-- The places of a disk stay when a node is put. -/
theorem any_put {f : List String → Bool} (place : List String) (node : Node)
    (h : (disk.entries.any fun e => f e.1) = true) :
    ((disk.put place node).entries.any fun e => f e.1) = true := by
  obtain ⟨e, he, hf⟩ := List.any_eq_true.mp h
  unfold put
  split
  · refine List.any_eq_true.mpr ⟨_, List.mem_map_of_mem he, ?_⟩
    by_cases hplace : e.1 = place
    · simpa [hplace] using hf
    · simpa [hplace] using hf
  · exact List.any_eq_true.mpr ⟨e, List.mem_append_left _ he, hf⟩

@[simp] theorem here_put (place : List String) (node : Node) :
    (disk.put place node).here = disk.here := by
  unfold put
  split <;> rfl

theorem node?_put_self (place : List String) (node : Node) :
    (disk.put place node).node? place = some node := by
  unfold node?
  rw [find?_put_self]

theorem node?_put_of_ne {place p : List String} (hne : p ≠ place) (node : Node) {n : Node}
    (h : disk.node? p = some n) : (disk.put place node).node? p = some n := by
  unfold node? at h ⊢
  rw [find?_put_of_ne hne]
  cases hfind : disk.entries.find? fun e => e.1 == p with
  | some e =>
    rw [hfind] at h
    exact h
  | none =>
    simp only [hfind, here_put] at h ⊢
    split at h
    · rename_i hcond
      rcases Bool.or_eq_true_iff.mp hcond with hhere | hany
      · rw [hhere, Bool.true_or, if_pos rfl]
        exact h
      · rw [any_put place node hany, Bool.or_true, if_pos rfl]
        exact h
    · cases h

/-- Where something stood, something stands. -/
theorem isSome_node?_put {p : List String} (place : List String) (node : Node)
    (h : (disk.node? p).isSome = true) : ((disk.put place node).node? p).isSome = true := by
  by_cases hp : p = place
  · rw [hp, node?_put_self]
    rfl
  · obtain ⟨n, hn⟩ := Option.isSome_iff_exists.mp h
    rw [node?_put_of_ne hp node hn]
    rfl

/-- Something stands at a place that an entry has, or that the working directory or an entry lies
below. -/
theorem isSome_node?_iff {p : List String} :
    (disk.node? p).isSome = true ↔ p <+: disk.here ∨ ∃ e ∈ disk.entries, p <+: e.1 := by
  unfold node?
  cases hfind : disk.entries.find? fun e => e.1 == p with
  | some e =>
    obtain rfl : e.1 = p := by simpa using List.find?_some hfind
    exact iff_of_true rfl (Or.inr ⟨e, List.mem_of_find?_eq_some hfind, List.prefix_refl _⟩)
  | none => simp

theorem mem_put {place : List String} {node : Node} {e : List String × Node}
    (h : e ∈ (disk.put place node).entries) : e.1 = place ∨ e ∈ disk.entries := by
  unfold put at h
  split at h
  · obtain ⟨e', he', rfl⟩ := List.mem_map.mp h
    by_cases hplace : e'.1 = place
    · simp [hplace]
    · simp [hplace, he']
  · rcases List.mem_append.mp h with hold | hnew
    · exact Or.inr hold
    · rw [List.mem_singleton.mp hnew]
      exact Or.inl rfl

/-- **What is put below a directory changes nothing elsewhere**: the places on the way to it were
taken before. -/
theorem node?_put_below {parent p : List String} {name : String}
    (hparent : disk.node? parent = some .directory) (node : Node) (hne : p ≠ parent ++ [name]) :
    (disk.put (parent ++ [name]) node).node? p = disk.node? p := by
  cases hold : disk.node? p with
  | some n => exact node?_put_of_ne hne node hold
  | none =>
    have hempty : ¬ (p <+: disk.here ∨ ∃ e ∈ disk.entries, p <+: e.1) := by
      rw [← isSome_node?_iff, hold]
      simp
    rw [← Option.not_isSome_iff_eq_none, isSome_node?_iff, here_put]
    rintro (hhere | ⟨e, he, hprefix⟩)
    · exact hempty (Or.inl hhere)
    · rcases mem_put he with hplace | hmem
      · rw [hplace, List.prefix_concat_iff] at hprefix
        have hup : p <+: parent := hprefix.resolve_left hne
        have hdir : (disk.node? parent).isSome = true := by rw [hparent]; rfl
        rcases isSome_node?_iff.mp hdir with hhere | ⟨e', he', hbelow⟩
        · exact hempty (Or.inl (hup.trans hhere))
        · exact hempty (Or.inr ⟨e', he', hup.trans hbelow⟩)
      · exact hempty (Or.inr ⟨e, hmem, hprefix⟩)

/-! ## Walks -/

theorem walk_append (place : List String) (parts more : List String) {q : List String}
    (h : disk.walk place parts = .ok q) : disk.walk place (parts ++ more) = disk.walk q more := by
  induction parts generalizing place with
  | nil =>
    obtain rfl := Except.ok.inj h
    rfl
  | cons part parts ih =>
    rw [walk] at h
    rw [List.cons_append, walk]
    cases hnext : disk.next place part with
    | error e =>
      rw [hnext] at h
      cases h
    | ok place' =>
      rw [hnext] at h
      exact ih place' h

/-- A step from a directory is possible in one place only: from a directory. -/
theorem node?_of_next {place q : List String} {part : String} (h : disk.next place part = .ok q) :
    disk.node? place = some .directory := by
  unfold next at h
  split at h
  · cases h
  · cases h
  · assumption

section Put

variable {target : List String} (htarget : disk.node? target ≠ some .directory) (node : Node)

include htarget

theorem next_put {place q : List String} {part : String} (h : disk.next place part = .ok q) :
    (disk.put target node).next place part = .ok q := by
  have hplace := node?_of_next h
  have hne : place ≠ target := fun heq => htarget (heq ▸ hplace)
  unfold next at h ⊢
  rw [hplace] at h
  rw [node?_put_of_ne hne node hplace]
  simp only at h ⊢
  split at h
  · rename_i hstay
    rwa [if_pos hstay]
  · rename_i hstay
    rw [if_neg hstay]
    split at h
    · rename_i hup
      rwa [if_pos hup]
    · rename_i hup
      rw [if_neg hup]
      split at h
      · cases h
      · rename_i hlong
        rw [if_neg hlong]
        split at h
        · rename_i hsome
          rwa [if_pos (isSome_node?_put target node hsome)]
        · cases h

/-- **A walk is not changed by what is put where there is no directory.** -/
theorem walk_put {place q : List String} {parts : List String} (h : disk.walk place parts = .ok q) :
    (disk.put target node).walk place parts = .ok q := by
  induction parts generalizing place with
  | nil => exact h
  | cons part parts ih =>
    rw [walk] at h ⊢
    cases hnext : disk.next place part with
    | error e =>
      rw [hnext] at h
      cases h
    | ok place' =>
      rw [hnext] at h
      rw [next_put htarget node hnext]
      exact ih h

end Put

/-! ## Files -/

/-- The parts of a path that no slash ends. -/
theorem partsOf_of_splitTarget {path : String} {before : List String} {last : String}
    (h : splitTarget path = (before, last, false)) :
    partsOf path = before ++ [last] ∧ last ≠ "" := by
  unfold splitTarget at h
  cases hreversed : (partsOf path).reverse with
  | nil =>
    rw [hreversed] at h
    cases h
  | cons first rest =>
    rw [hreversed] at h
    by_cases hempty : first = ""
    · -- then a slash ends the path
      simp only [hempty] at h
      split at h
      · cases h
      · simp at h
    · have hdrop : (first :: rest).dropWhile (· == "") = first :: rest := by simp [hempty]
      simp only [hdrop, Prod.mk.injEq] at h
      obtain ⟨rfl, rfl, -⟩ := h
      refine ⟨?_, hempty⟩
      rw [← List.reverse_inj, hreversed]
      simp

/-- What a write does: no directory stands at the place of the file, and the parts before its name
lead to a directory. -/
theorem write_cases {disk' : Disk} {path : String} {bytes : List UInt8}
    (h : disk.write path bytes = .ok disk') :
    ∃ before last place, partsOf path = before ++ [last] ∧
      path.toList.contains '\x00' = false ∧ path.isEmpty = false ∧ isLongPath path = false ∧
      disk.walk (disk.start path) before = .ok place ∧ disk.node? place = some .directory ∧
      (last == "" || last == ".") = false ∧ (last == "..") = false ∧ isLongName last = false ∧
      disk.node? (place ++ [last]) ≠ some .directory ∧
      disk' = disk.put (place ++ [last]) (.file bytes) := by
  obtain ⟨before, last, slash, hsplit⟩ : ∃ before last slash, splitTarget path =
      (before, last, slash) :=
    ⟨_, _, _, rfl⟩
  unfold write at h
  simp only [hsplit] at h
  split at h
  · cases h
  rename_i hnul
  split at h
  · cases h
  rename_i hempty
  split at h
  · cases h
  rename_i hlong
  split at h
  · cases h
  rename_i place hwalk
  split at h
  · cases h
  · cases h
  rename_i hplace
  split at h
  · cases h
  rename_i hspecial
  split at h
  · cases h
  rename_i hname
  split at h
  · cases h
  rename_i htarget
  simp only [Bool.or_eq_true, not_or, Bool.not_eq_true] at hspecial
  obtain ⟨⟨hslash, hdot⟩, hup⟩ := hspecial
  rw [hslash] at hsplit
  obtain ⟨hparts, hlast⟩ := partsOf_of_splitTarget hsplit
  refine ⟨before, last, place, hparts, by simpa using hnul, by simpa using hempty,
    by simpa using hlong, hwalk, hplace,
    ?_, hup, by simpa using hname, by simpa using htarget, (Except.ok.inj h).symm⟩
  rw [hdot, Bool.or_false]
  exact beq_eq_false_iff_ne.mpr hlast

/-- The path leads to the place. -/
def Leads (disk : Disk) (path : String) (place : List String) : Prop :=
  disk.walk (disk.start path) (partsOf path) = .ok place

/-- A path leads to the file that is put where its last part stands. -/
theorem leads_put {path last : String} {before parent : List String}
    (hparts : partsOf path = before ++ [last])
    (hwalk : disk.walk (disk.start path) before = .ok parent)
    (hparent : disk.node? parent = some .directory) (hstay : (last == "" || last == ".") = false)
    (hup : (last == "..") = false) (hname : isLongName last = false)
    (htarget : disk.node? (parent ++ [last]) ≠ some .directory) (node : Node) :
    (disk.put (parent ++ [last]) node).Leads path (parent ++ [last]) := by
  have hne : parent ≠ parent ++ [last] := by simp
  have hnext : (disk.put (parent ++ [last]) node).next parent last = .ok (parent ++ [last]) := by
    unfold next
    rw [node?_put_of_ne hne _ hparent]
    simp only [hstay, hup, hname, node?_put_self]
    rfl
  have hstart : (disk.put (parent ++ [last]) node).start path = disk.start path := by simp [start]
  rw [Leads, hparts, hstart, walk_append _ _ _ (walk_put htarget _ hwalk), walk, hnext]
  rfl

/-- **A file that was written is read back.** -/
theorem read_write {disk' : Disk} {path : String} {bytes : List UInt8}
    (h : disk.write path bytes = .ok disk') :
    disk'.read path = .ok bytes := by
  obtain ⟨before, last, place, hparts, hnul, hempty, hlong, hwalk, hplace, hstay, hup, hname,
    htarget, rfl⟩ := write_cases h
  have hleads := leads_put hparts hwalk hplace hstay hup hname htarget (.file bytes)
  have hfind : (disk.put (place ++ [last]) (.file bytes)).find path = .ok (.file bytes) := by
    unfold find
    rw [hnul, hempty, hlong, hleads]
    simp [node?_put_self]
  unfold read
  rw [hfind]

/-- The disks are the same but for what stands at one place. -/
structure SameBut (place : List String) (before after : Disk) : Prop where
  here : after.here = before.here
  nodes : ∀ p, p ≠ place → after.node? p = before.node? p

/-- **A write changes the place that its path leads to, and no other.**  If the path led to a place
before, it was this one. -/
theorem sameBut_write {disk' : Disk} {path : String} {bytes : List UInt8}
    (h : disk.write path bytes = .ok disk') :
    ∃ place, disk'.Leads path place ∧ (∀ q, disk.Leads path q → q = place) ∧
      SameBut place disk disk' := by
  obtain ⟨before, last, parent, hparts, -, -, -, hwalk, hparent, hstay, hup, hname, htarget, rfl⟩ :=
    write_cases h
  have hleads := leads_put hparts hwalk hparent hstay hup hname htarget (.file bytes)
  refine ⟨parent ++ [last], hleads, ?_, here_put _ _, fun p hp => node?_put_below hparent _ hp⟩
  intro q hq
  have hagain : (disk.put (parent ++ [last]) (.file bytes)).Leads path q := by
    rw [Leads, start, here_put]
    exact walk_put htarget _ hq
  exact Except.ok.inj (hagain.symm.trans hleads)

end Amalgam.Disk
