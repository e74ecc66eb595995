import Amalgam.Proofs.DepthLimit

/-!
# The calls of an expansion, one step at a time

`expandAt` hands the headers inlined so far through its calls, and each call has a depth and a chain
of its own.  Here the same is done by small steps, with the open calls on a stack and the headers
inlined in one place that all of them share.  The contexts of all calls can then be watched while
they are open.

* `completes_expandAt` — small steps expand as `expandAt` does, and make its calls in its order.
* `Step.deterministic` — no other steps can be taken.
* `Steps.calls_suffix`, `Steps.inlined_prefix` — while a call is open nothing below it on the stack
  changes, and the headers inlined only become more.
* `Step.sound` — a step leaves the context of every open call consistent.
* `bundle_calls_consistent` — so the context of every call of a bundle is consistent, and each call
  returns to a caller whose context is as it was.
-/

set_option autoImplicit false

namespace Amalgam

/-! ## Machine -/

/-- A call that is open. -/
structure Frame where
  /-- The call; a source is expanded by a call as well. -/
  call : Visit
  /-- The number of the next line, or of the include at which a header is being expanded. -/
  number : Nat
  /-- The lines that are still to be expanded. -/
  lines : List Line
  /-- The rows put out so far. -/
  rows : List Row

/-- The frame of a call that has done nothing. -/
def Visit.opened (call : Visit) (lines : List Line) : Frame := ⟨call, 1, lines, []⟩

/-- A bundle in the making. -/
structure Bundling where
  /-- The open calls, innermost first. -/
  frames : List Frame
  inlined : List String
  /-- The sources that are still to be expanded. -/
  waiting : List TextFile
  chunks : List Chunk

/-- A call has ended with these rows: its file lies too deep, or no line is left. -/
inductive Frame.Ends (frame : Frame) : List Row → Prop where
  | cut (h : frame.call.ctx.limit < frame.call.ctx.depth) :
      Ends frame (cutRows frame.call.ctx.limit frame.call.header.name frame.lines)
  | done (h : frame.call.ctx.depth ≤ frame.call.ctx.limit) (hlines : frame.lines = []) :
      Ends frame frame.rows

namespace Bundling

/-- The open calls. -/
def calls (s : Bundling) : List Visit := s.frames.map (·.call)

/-- The source that is being expanded. -/
def source? (s : Bundling) : Option TextFile := s.calls.getLast?.map (·.header)

/-- Nothing has been expanded. -/
def start (tag : String) (files : List TextFile) : Bundling :=
  match Sources.ofFiles tag files with
  | none => ⟨[], [], [], []⟩
  | some sources => ⟨[], [], sources.order, []⟩

end Bundling

/-- The call for a header that is included inside a call. -/
def Visit.enter (call : Visit) (inlined : List String) (file : TextFile) : Visit :=
  ⟨{ call.ctx.enter file.name with inlined := inlined ++ [file.name] }, file⟩

/-- One step, and the call for a header if it makes one. -/
inductive Step (index : Index) (limit : Int) : Bundling → Option Visit → Bundling → Prop where
  | start {inlined : List String} {file : TextFile} {files : List TextFile} {chunks : List Chunk} :
      Step index limit ⟨[], inlined, file :: files, chunks⟩ none
        ⟨[Visit.opened ⟨{ Context.fresh limit with inlined := inlined }, file⟩
          (splitLines file.content.toList)],
          inlined, files, chunks⟩
  | keep {call : Visit} {number : Nat} {line : Line} {lines : List Line} {rows : List Row}
      {frames : List Frame} {inlined : List String} {files : List TextFile} {chunks : List Chunk}
      {copy : Copy} (hdepth : call.ctx.depth ≤ call.ctx.limit)
      (hcopy : Kept index call.ctx.chain inlined line copy) :
      Step index limit ⟨⟨call, number, line :: lines, rows⟩ :: frames, inlined, files, chunks⟩ none
        ⟨⟨call, number + 1, lines, rows ++ [.source call.header.name number copy]⟩ :: frames,
          inlined, files, chunks⟩
  | enter {call : Visit} {number : Nat} {line : Line} {lines : List Line} {rows : List Row}
      {frames : List Frame} {inlined : List String} {files : List TextFile} {chunks : List Chunk}
      {file : TextFile} (hdepth : call.ctx.depth ≤ call.ctx.limit)
      (hline : index.included? line = some file) (hchain : file.name ∉ call.ctx.chain)
      (hnew : file.name ∉ inlined) :
      Step index limit ⟨⟨call, number, line :: lines, rows⟩ :: frames, inlined, files, chunks⟩
        (some (call.enter inlined file))
        ⟨(call.enter inlined file).opened (headerLines file) ::
            ⟨call, number, lines, rows⟩ :: frames,
          inlined ++ [file.name], files, chunks⟩
  | leave {callee : Frame} {body : List Row} {call : Visit} {number : Nat} {lines : List Line}
      {rows : List Row} {frames : List Frame} {inlined : List String} {files : List TextFile}
      {chunks : List Chunk} (hends : callee.Ends body) :
      Step index limit
        ⟨callee :: ⟨call, number, lines, rows⟩ :: frames, inlined, files, chunks⟩ none
        ⟨⟨call, number + 1, lines,
            rows ++ blockRows call.header.name number callee.call.header.name body⟩ :: frames,
          inlined, files, chunks⟩
  | finish {frame : Frame} {rows : List Row} {inlined : List String} {files : List TextFile}
      {chunks : List Chunk} (hends : frame.Ends rows) :
      Step index limit ⟨[frame], inlined, files, chunks⟩ none
        ⟨[], inlined, files, chunks ++ [⟨frame.call.header, rows, inlined⟩]⟩

/-- Steps one after another, during which never fewer than `least` calls are open, and the calls
they make. -/
inductive Steps (index : Index) (limit : Int) (least : Nat) :
    Bundling → List Visit → Bundling → Prop where
  | refl {s : Bundling} (h : least ≤ s.frames.length) : Steps index limit least s [] s
  | step {s m t : Bundling} {call : Option Visit} {calls : List Visit} (h : least ≤ s.frames.length)
      (hstep : Step index limit s call m) (hrest : Steps index limit least m calls t) :
      Steps index limit least s (call.toList ++ calls) t

/-! ## Steps can be taken in one way -/

section Deterministic

variable {index : Index} {limit : Int}

theorem Frame.Ends.deterministic {frame : Frame} {rows rows' : List Row} (h : frame.Ends rows)
    (h' : frame.Ends rows') : rows = rows' := by
  cases h with
  | cut hcut =>
    cases h' with
    | cut => rfl
    | done hdepth => omega
  | done hdepth hlines =>
    cases h' with
    | cut hcut => omega
    | done => rfl

/-- A call that has ended expands no line. -/
theorem Frame.Ends.not_expanding {call : Visit} {number : Nat} {line : Line} {lines : List Line}
    {rows body : List Row} (h : Frame.Ends ⟨call, number, line :: lines, rows⟩ body) :
    call.ctx.limit < call.ctx.depth := by
  cases h with
  | cut hcut => exact hcut
  | done hdepth hlines => cases hlines

/-- **There is at most one step.** -/
theorem Step.deterministic {s t t' : Bundling} {call call' : Option Visit}
    (h : Step index limit s call t) (h' : Step index limit s call' t') : call = call' ∧ t = t' := by
  cases h with
  | start =>
    cases h'
    exact ⟨rfl, rfl⟩
  | keep hdepth hcopy =>
    cases h' with
    | keep _ hcopy' =>
      rw [hcopy.deterministic hcopy']
      exact ⟨rfl, rfl⟩
    | enter _ hline hchain hnew => exact absurd (hcopy.not_new hline hchain) hnew
    | leave hends =>
      have hcut := hends.not_expanding
      omega
    | finish hends =>
      have hcut := hends.not_expanding
      omega
  | enter hdepth hline hchain hnew =>
    cases h' with
    | keep _ hcopy => exact absurd (hcopy.not_new hline hchain) hnew
    | enter _ hline' =>
      obtain rfl := Option.some.inj (hline.symm.trans hline')
      exact ⟨rfl, rfl⟩
    | leave hends =>
      have hcut := hends.not_expanding
      omega
    | finish hends =>
      have hcut := hends.not_expanding
      omega
  | leave hends =>
    cases h' with
    | keep hdepth =>
      have hcut := hends.not_expanding
      omega
    | enter hdepth =>
      have hcut := hends.not_expanding
      omega
    | leave hends' =>
      rw [hends.deterministic hends']
      exact ⟨rfl, rfl⟩
  | finish hends =>
    cases h' with
    | keep hdepth =>
      have hcut := hends.not_expanding
      omega
    | enter hdepth =>
      have hcut := hends.not_expanding
      omega
    | finish hends' =>
      rw [hends.deterministic hends']
      exact ⟨rfl, rfl⟩

end Deterministic

/-! ## Runs -/

section Runs

variable {index : Index} {limit : Int} {least : Nat} {s m t : Bundling} {calls calls' : List Visit}

theorem Steps.single {call : Option Visit} (hs : least ≤ s.frames.length)
    (ht : least ≤ t.frames.length) (h : Step index limit s call t) :
    Steps index limit least s call.toList t := by
  rw [← List.append_nil call.toList]
  exact .step hs h (.refl ht)

theorem Steps.trans (h : Steps index limit least s calls m)
    (h' : Steps index limit least m calls' t) :
    Steps index limit least s (calls ++ calls') t := by
  induction h with
  | refl _ => exact h'
  | step hs hstep hrest ih =>
    rw [List.append_assoc]
    exact .step hs hstep (ih h')

theorem Steps.mono {least' : Nat} (hle : least' ≤ least) (h : Steps index limit least s calls t) :
    Steps index limit least' s calls t := by
  induction h with
  | refl hs => exact .refl (Nat.le_trans hle hs)
  | step hs hstep hrest ih => exact .step (Nat.le_trans hle hs) hstep ih

/-- What every step keeps, every run keeps. -/
theorem Steps.keeps {P : Bundling → Prop}
    (hkeeps : ∀ s call t, Step index limit s call t → P s → P t)
    (h : Steps index limit least s calls t) (hs : P s) : P t := by
  induction h with
  | refl _ => exact hs
  | step _ hstep _ ih => exact ih (hkeeps _ _ _ hstep hs)

/-- A run is the beginning of each run that cannot go on. -/
theorem Steps.of_stuck (hstuck : ∀ call t', ¬ Step index limit t call t')
    (h : Steps index limit least s calls t) {least' : Nat}
    (h' : Steps index limit least' s calls' m) :
    ∃ rest, calls = calls' ++ rest ∧ Steps index limit least m rest t := by
  induction h' generalizing calls with
  | refl _ => exact ⟨calls, rfl, h⟩
  | step _ hstep' _ ih =>
    cases h with
    | refl _ => exact absurd hstep' (hstuck _ _)
    | step _ hstep hrest =>
      obtain ⟨rfl, rfl⟩ := hstep.deterministic hstep'
      obtain ⟨rest, rfl, hrun⟩ := ih hrest
      exact ⟨rest, by rw [List.append_assoc], hrun⟩

/-- The calls of a run that cannot go on are those of the steps that can be reached. -/
theorem Steps.mem_calls_iff (hstuck : ∀ call t', ¬ Step index limit t call t')
    (h : Steps index limit 0 s calls t) (v : Visit) :
    v ∈ calls ↔ ∃ before m m', Steps index limit 0 s before m ∧ Step index limit m (some v) m' := by
  constructor
  · intro hv
    induction h with
    | refl _ => cases hv
    | @step s m _ call _ hs hstep hrest ih =>
      rcases List.mem_append.mp hv with hv | hv
      · obtain rfl := Option.mem_toList.mp hv
        exact ⟨[], s, m, .refl hs, hstep⟩
      · obtain ⟨before, m₁, m₂, hbefore, hcall⟩ := ih hstuck hv
        exact ⟨_, m₁, m₂, .step hs hstep hbefore, hcall⟩
  · rintro ⟨before, m, m', hbefore, hcall⟩
    obtain ⟨rest, rfl, hrun⟩ := h.of_stuck hstuck hbefore
    cases hrun with
    | refl _ => exact absurd hcall (hstuck _ _)
    | step _ hstep _ =>
      obtain ⟨rfl, -⟩ := hstep.deterministic hcall
      simp

end Runs

/-! ## The stack -/

section Stack

variable {index : Index} {limit : Int} {s t : Bundling} {call : Option Visit}

/-- A step leaves the open calls as they are, or opens one more, or closes the innermost one. -/
theorem Step.calls_cases (h : Step index limit s call t) :
    t.calls = s.calls ∨ (∃ v, t.calls = v :: s.calls) ∨ ∃ v, s.calls = v :: t.calls := by
  cases h with
  | start => exact Or.inr (Or.inl ⟨_, rfl⟩)
  | keep => exact Or.inl rfl
  | enter => exact Or.inr (Or.inl ⟨_, rfl⟩)
  | leave => exact Or.inr (Or.inr ⟨_, rfl⟩)
  | finish => exact Or.inr (Or.inr ⟨_, rfl⟩)

theorem Bundling.length_calls (s : Bundling) : s.calls.length = s.frames.length := List.length_map _

theorem Step.calls_suffix (h : Step index limit s call t) {base : List Visit}
    (hs : base <:+ s.calls) (ht : base.length ≤ t.frames.length) : base <:+ t.calls := by
  rw [← t.length_calls] at ht
  rcases h.calls_cases with heq | ⟨v, heq⟩ | ⟨v, heq⟩
  · rw [heq]
    exact hs
  · rw [heq]
    exact hs.trans (List.suffix_cons v _)
  · rw [heq] at hs
    exact List.suffix_of_suffix_length_le hs (List.suffix_cons v _) ht

theorem Steps.le_length {least : Nat} {calls : List Visit} (h : Steps index limit least s calls t) :
    least ≤ s.frames.length := by
  cases h with
  | refl hs => exact hs
  | step hs => exact hs

/-- **While a call is open nothing below it on the stack changes.** -/
theorem Steps.calls_suffix {least : Nat} {calls : List Visit}
    (h : Steps index limit least s calls t) {base : List Visit} (hbase : base.length ≤ least)
    (hs : base <:+ s.calls) : base <:+ t.calls := by
  induction h with
  | refl _ => exact hs
  | step _ hstep hrest ih => exact ih (hstep.calls_suffix hs (Nat.le_trans hbase hrest.le_length))

/-- A call goes on top of the open ones, and starts with the headers inlined by then. -/
theorem Step.calls_of_some {v : Visit} (h : Step index limit s (some v) t) :
    t.calls = v :: s.calls ∧ t.frames.length = s.frames.length + 1 ∧ t.inlined = v.ctx.inlined ∧
    s.calls ≠ [] := by
  cases h
  exact ⟨rfl, rfl, rfl, List.cons_ne_nil _ _⟩

theorem Step.inlined_prefix (h : Step index limit s call t) : s.inlined <+: t.inlined := by
  cases h with
  | enter => exact List.prefix_append _ _
  | start | keep | leave | finish => exact List.prefix_refl _

/-- **The headers inlined only become more.** -/
theorem Steps.inlined_prefix {least : Nat} {calls : List Visit}
    (h : Steps index limit least s calls t) :
    s.inlined <+: t.inlined := by
  induction h with
  | refl _ => exact List.prefix_refl _
  | step _ hstep _ ih => exact hstep.inlined_prefix.trans ih

end Stack

/-! ## Steps expand -/

section Expand

variable {index : Index} {limit : Int}

/-- On top of any stack, the call runs to its end: it makes these calls and has this result. -/
def Completes (index : Index) (limit : Int) (call : Visit) (lines : List Line) (calls : List Visit)
    (result : Expanded) : Prop :=
  ∀ frames files chunks, ∃ frame : Frame, frame.call = call ∧ frame.Ends result.rows ∧
    Steps index limit (frames.length + 1)
    ⟨call.opened lines :: frames, call.ctx.inlined, files, chunks⟩ calls
      ⟨frame :: frames, result.inlined, files, chunks⟩

/-- Lines are expanded if the calls for new headers run to their ends.  `levels` bounds how many
names are unseen at the start, so that fewer are when a header is entered. -/
theorem steps_expandLines {call : Visit} (hdepth : call.ctx.depth ≤ call.ctx.limit) {levels : Nat}
    {inside : TextFile → List String → Expanded} {enter : TextFile → List String → List Visit}
    (hinside : ∀ file inlined, index.unseen inlined < levels → ∃ later,
      enter file inlined = ⟨{ call.ctx.enter file.name with inlined := inlined }, file⟩ :: later ∧
      Completes index limit ⟨{ call.ctx.enter file.name with inlined := inlined }, file⟩
        (headerLines file) later (inside file inlined) ∧ inlined ⊆ (inside file inlined).inlined)
    (lines : List Line) (number : Nat) (inlined : List String)
    (hseen : index.unseen inlined ≤ levels) (rows : List Row) (frames : List Frame)
    (files : List TextFile) (chunks : List Chunk) :
    Steps index limit (frames.length + 1)
      ⟨⟨call, number, lines, rows⟩ :: frames, inlined, files, chunks⟩
      (visitsOfLines index call.ctx.chain call.header.name inside enter number lines inlined)
      ⟨⟨call, number + lines.length, [],
          rows ++ (expandLines index call.ctx.chain call.header.name inside number lines
            inlined).rows⟩ :: frames,
        (expandLines index call.ctx.chain call.header.name inside number lines inlined).inlined,
          files, chunks⟩ := by
  induction lines generalizing number inlined rows with
  | nil =>
    simp only [visitsOfLines, expandLines, List.append_nil]
    exact .refl (by simp)
  | cons line lines ih =>
    rw [visitsOfLines, expandLines]
    rcases @expandLine_cases index call.ctx.chain call.header.name inside number line inlined with
      ⟨copy, hcopy, heq⟩ | ⟨file, hline, hchain, hnew, heq⟩
    · rw [heq, visitsOfLine_of_kept hcopy]
      have hrest := ih (number + 1) inlined hseen (rows ++ [.source call.header.name number copy])
      rw [List.append_assoc, Nat.add_assoc, Nat.add_comm 1] at hrest
      exact .step (by simp) (.keep hdepth hcopy) hrest
    · have hless : index.unseen (inlined ++ [file.name]) < levels :=
        Nat.lt_of_lt_of_le (Index.unseen_append_lt (Index.holds_of_included? hline) hnew) hseen
      obtain ⟨later, henter, hcompletes, hgrows⟩ := hinside file (inlined ++ [file.name]) hless
      rw [heq, visitsOfLine_of_included hline hchain hnew, henter]
      obtain ⟨callee, hcallee, hends, hbody⟩ :=
        hcompletes (⟨call, number, lines, rows⟩ :: frames) files chunks
      have hafter : index.unseen _ ≤ index.unseen _ := Index.unseen_le_of_subset hgrows
      have hrest := ih (number + 1) (inside file (inlined ++ [file.name])).inlined (by omega)
        (rows ++ blockRows call.header.name number file.name
          (inside file (inlined ++ [file.name])).rows)
      rw [List.append_assoc, Nat.add_assoc, Nat.add_comm 1] at hrest
      have hleave := @Step.leave index limit callee _ call number lines rows frames
        (inside file (inlined ++ [file.name])).inlined files chunks hends
      rw [hcallee] at hleave
      have hinner := hbody.mono (Nat.le_succ (frames.length + 1))
      exact .step (by simp) (.enter hdepth hline hchain hnew)
        (hinner.trans (.step (by simp) hleave hrest))

/-- A call for a file that does not lie too deep runs to the end of its lines. -/
theorem completes_expandLines {call : Visit} (hdepth : call.ctx.depth ≤ call.ctx.limit)
    {levels : Nat} {inside : TextFile → List String → Expanded}
    {enter : TextFile → List String → List Visit}
    (hinside : ∀ file inlined, index.unseen inlined < levels → ∃ later,
      enter file inlined = ⟨{ call.ctx.enter file.name with inlined := inlined }, file⟩ :: later ∧
      Completes index limit ⟨{ call.ctx.enter file.name with inlined := inlined }, file⟩
        (headerLines file) later (inside file inlined) ∧ inlined ⊆ (inside file inlined).inlined)
    (lines : List Line) (hseen : index.unseen call.ctx.inlined ≤ levels) :
    Completes index limit call lines
      (visitsOfLines index call.ctx.chain call.header.name inside enter 1 lines call.ctx.inlined)
      (expandLines index call.ctx.chain call.header.name inside 1 lines call.ctx.inlined) :=
  fun frames files chunks => ⟨_, rfl, .done hdepth rfl,
    steps_expandLines hdepth hinside lines 1 call.ctx.inlined hseen [] frames files chunks⟩

/-- A call for a file that lies too deep ends at once. -/
theorem completes_of_limit_lt {ctx : Context} (hlimit : ctx.limit < ctx.depth) (header : TextFile)
    (lines : List Line) :
    Completes index limit ⟨ctx, header⟩ lines []
      ⟨cutRows ctx.limit header.name lines, ctx.inlined⟩ :=
  fun _ _ _ => ⟨_, rfl, .cut hlimit, .refl (by simp)⟩

/-- **Small steps expand as `expandAt` does, and make its calls in its order.** -/
theorem completes_expandAt (levels : Nat) (ctx : Context) (header : TextFile) (lines : List Line)
    (hseen : index.unseen ctx.inlined ≤ levels) :
    Completes index limit ⟨ctx, header⟩ lines (visitsAt index levels ctx header.name lines)
      (expandAt index levels ctx header.name lines) := by
  induction levels generalizing ctx header lines with
  | zero =>
    by_cases hlimit : ctx.limit < ctx.depth
    · rw [expandAt_of_limit_lt hlimit, visitsAt, if_pos hlimit]
      exact completes_of_limit_lt hlimit header lines
    · rw [visitsAt, if_neg hlimit, expandAt, if_neg hlimit]
      -- no name is unseen, so no header is entered
      exact @completes_expandLines index limit ⟨ctx, header⟩ (Int.not_lt.mp hlimit) 0
        (fun _ inlined => ⟨[], inlined⟩)
        (fun _ _ => []) (fun _ _ hless => absurd hless (Nat.not_lt_zero _)) lines hseen
  | succ levels ih =>
    by_cases hlimit : ctx.limit < ctx.depth
    · rw [expandAt_of_limit_lt hlimit, visitsAt, if_pos hlimit]
      exact completes_of_limit_lt hlimit header lines
    · rw [visitsAt, if_neg hlimit, expandAt, if_neg hlimit]
      refine @completes_expandLines index limit ⟨ctx, header⟩ (Int.not_lt.mp hlimit) (levels + 1)
        (fun file inlined => expandAt index levels
          { ctx.enter file.name with inlined := inlined } file.name
          (headerLines file)) _ (fun file inlined hless => ⟨_, rfl, ?_, ?_⟩) lines hseen
      · exact ih { ctx.enter file.name with inlined := inlined } file (headerLines file)
          (Nat.le_of_lt_succ hless)
      · exact inlined_subset_expandAt levels
          { ctx.enter file.name with inlined := inlined } file.name
          (headerLines file) (Nat.le_of_lt_succ hless)

/-- Small steps expand files one after another. -/
theorem steps_expandFiles (files : List TextFile) (inlined : List String) (chunks : List Chunk) :
    ∃ after, Steps index limit 0 ⟨[], inlined, files, chunks⟩
      (visitsOfFiles index { Context.fresh limit with inlined := inlined } files)
      ⟨[], after, [], chunks ++ expandFiles index
        { Context.fresh limit with inlined := inlined } files⟩ := by
  induction files generalizing inlined chunks with
  | nil => exact ⟨inlined, by simpa [visitsOfFiles, expandFiles] using .refl (Nat.zero_le _)⟩
  | cons file files ih =>
    rw [visitsOfFiles, expandFiles]
    let ctx : Context := { Context.fresh limit with inlined := inlined }
    have hcompletes : Completes index limit ⟨ctx, file⟩ (splitLines file.content.toList)
        (visits index ctx file.name file.content) (expand index ctx file.name file.content) :=
      completes_expandAt index.files.length ctx file _ (Index.unseen_le_length inlined)
    obtain ⟨frame, hcall, hends, hbody⟩ := hcompletes [] files chunks
    obtain ⟨after, hrest⟩ := ih (expand index ctx file.name file.content).inlined
      (chunks ++ [⟨file, (expand index ctx file.name file.content).rows,
        (expand index ctx file.name file.content).inlined⟩])
    have hfinish :=
      @Step.finish index limit frame _
        (expand index ctx file.name file.content).inlined files chunks hends
    rw [hcall] at hfinish
    rw [List.append_assoc] at hrest
    exact ⟨after, .step (Nat.zero_le _) .start
      ((hbody.mono (Nat.zero_le _)).trans (.step (Nat.zero_le _) hfinish hrest))⟩

end Expand

/-! ## Returning -/

section Return

variable {index : Index} {limit : Int} {s t : Bundling}

/-- A step that closes a call makes none. -/
theorem Step.eq_none_of_length_lt {call : Option Visit} (h : Step index limit s call t)
    (hless : t.frames.length < s.frames.length) : call = none := by
  cases h with
  | enter =>
    simp only [List.length_cons] at hless
    omega
  | start | keep | leave | finish => rfl

/-- A step closes at most one call. -/
theorem Step.length_le {call : Option Visit} (h : Step index limit s call t) :
    s.frames.length ≤ t.frames.length + 1 := by
  rw [← s.length_calls, ← t.length_calls]
  rcases h.calls_cases with heq | ⟨v, heq⟩ | ⟨v, heq⟩
  · rw [heq]
    exact Nat.le_succ _
  · rw [heq, List.length_cons]
    omega
  · rw [heq, List.length_cons]

/-- A run that comes down to `n` open calls has a first step that does. -/
theorem Steps.exists_return {least n : Nat} {calls : List Visit}
    (h : Steps index limit least s calls t) (hs : n < s.frames.length) (ht : t.frames.length ≤ n) :
    ∃ during last back, Steps index limit (n + 1) s during last ∧ Step index limit last none back ∧
      back.frames.length = n := by
  induction h with
  | refl _ => omega
  | @step s m t call calls _ hstep hrest ih =>
    by_cases hm : n < m.frames.length
    · obtain ⟨during, last, back, hrun, hlast, hback⟩ := ih hm ht
      exact ⟨_, last, back, .step hs hstep hrun, hlast, hback⟩
    · have hlength := hstep.length_le
      have hnone := hstep.eq_none_of_length_lt (by omega)
      rw [hnone] at hstep
      exact ⟨[], s, m, .refl hs, hstep, by omega⟩

end Return

/-! ## Contexts -/

/-- The context in which a header is expanded, on the way from the source to the file. -/
structure Context.Consistent (index : Index) (limit : Int) (source file : TextFile)
    (ctx : Context) : Prop where
  depth_eq : ctx.depth = ctx.chain.length
  nodup : ctx.chain.Nodup
  chain_inlined : ctx.chain ⊆ ctx.inlined
  inlined_known : ctx.inlined ⊆ index.names
  /-- The source includes the first header of the chain, and each header the next one. -/
  linked : ∃ path : List TextFile, path.map (·.name) = ctx.chain ∧
    (source :: path).IsChain index.Includes ∧
    (source :: path).getLast? = some file
  limit_eq : ctx.limit = limit

namespace Context.Consistent

variable {index : Index} {limit : Int} {source file : TextFile} {ctx : Context}

theorem fresh (source : TextFile) {inlined : List String} (hknown : inlined ⊆ index.names) :
    Consistent index limit source source { Context.fresh limit with inlined := inlined } where
  depth_eq := rfl
  nodup := List.nodup_nil
  chain_inlined := List.nil_subset _
  inlined_known := hknown
  linked := ⟨[], rfl, .singleton source, rfl⟩
  limit_eq := rfl

/-- More headers may be inlined. -/
theorem grow (h : ctx.Consistent index limit source file) {inlined : List String}
    (hgrow : ctx.inlined ⊆ inlined) (hknown : inlined ⊆ index.names) :
    Consistent index limit source file { ctx with inlined := inlined } where
  depth_eq := h.depth_eq
  nodup := h.nodup
  chain_inlined := List.Subset.trans h.chain_inlined hgrow
  inlined_known := hknown
  linked := h.linked
  limit_eq := h.limit_eq

theorem enter (h : ctx.Consistent index limit source file) {target : TextFile}
    (hedge : index.Includes file target) (hnew : target.name ∉ ctx.chain) :
    Consistent index limit source target
      { ctx.enter target.name with inlined := ctx.inlined ++ [target.name] } := by
  obtain ⟨path, hchain, hedges, hends⟩ := h.linked
  have hpath : LeadsTo index source path file := ⟨hedges, hends, hchain ▸ h.nodup⟩
  have hlonger := hpath.enter hedge (hchain ▸ hnew)
  have hnames : (path ++ [target]).map (·.name) = ctx.chain ++ [target.name] := by
    rw [List.map_append, hchain]; rfl
  refine ⟨?_, ?_, ?_, ?_, ⟨path ++ [target], hnames, hlonger.edges, hlonger.ends⟩, h.limit_eq⟩
  · show ctx.depth + 1 = ((ctx.chain ++ [target.name]).length : Int)
    rw [h.depth_eq, List.length_append]
    rfl
  · show (ctx.chain ++ [target.name]).Nodup
    rw [← hnames]
    exact hlonger.nodup
  · exact List.append_subset.mpr ⟨List.subset_append_of_subset_left _ h.chain_inlined,
      List.subset_append_right _ _⟩
  · exact List.append_subset.mpr ⟨h.inlined_known, by simpa using hedge.holds.mem_names⟩

end Context.Consistent

/-- The call has a consistent context, with the headers inlined by now, and its lines are lines of
its file. -/
structure Frame.Sound (index : Index) (limit : Int) (source : TextFile) (inlined : List String)
    (frame : Frame) :
    Prop where
  consistent : Context.Consistent index limit source frame.call.header
    { frame.call.ctx with inlined := inlined }
  includes : ∀ line ∈ frame.lines, ∀ target, index.included? line = some target →
    index.Includes frame.call.header target

/-- All open calls are sound, and the sources are expanded in order. -/
structure Bundling.Sound (index : Index) (limit : Int) (order : List TextFile) (s : Bundling) :
    Prop where
  order_eq : s.chunks.map (·.file) ++ (s.source?.toList ++ s.waiting) = order
  known : s.inlined ⊆ index.names
  frames : ∀ source, s.source? = some source →
    ∀ frame ∈ s.frames, frame.Sound index limit source s.inlined

section Sound

variable {index : Index} {limit : Int} {order : List TextFile}

theorem Frame.Sound.grow {source : TextFile} {inlined more : List String} {frame : Frame}
    (h : frame.Sound index limit source inlined) (hgrow : inlined ⊆ more)
    (hknown : more ⊆ index.names) :
    frame.Sound index limit source more :=
  ⟨h.consistent.grow hgrow hknown, h.includes⟩

/-- A frame that has fewer lines left is sound. -/
theorem Frame.Sound.advance {source : TextFile} {inlined : List String} {call : Visit}
    {number number' : Nat} {lines lines' : List Line} {rows rows' : List Row}
    (h : Frame.Sound index limit source inlined ⟨call, number, lines, rows⟩)
    (hlines : lines' ⊆ lines) :
    Frame.Sound index limit source inlined ⟨call, number', lines', rows'⟩ :=
  ⟨h.consistent, fun line hline => h.includes line (hlines hline)⟩

/-- **A step leaves the context of every open call consistent.** -/
theorem Step.sound {s t : Bundling} {call : Option Visit} (h : Step index limit s call t)
    (hs : s.Sound index limit order) : t.Sound index limit order := by
  cases h with
  | @start inlined file files chunks =>
    refine ⟨hs.order_eq, hs.known, fun source hsource frame hframe => ?_⟩
    obtain rfl := Option.some.inj hsource
    obtain rfl := List.mem_singleton.mp hframe
    exact ⟨.fresh _ hs.known, fun line hline target htarget => ⟨line, hline, htarget⟩⟩
  | keep hdepth hcopy =>
    refine ⟨hs.order_eq, hs.known, fun source hsource => ?_⟩
    obtain ⟨hframe, hframes⟩ := List.forall_mem_cons.mp (hs.frames source hsource)
    exact List.forall_mem_cons.mpr ⟨hframe.advance (List.subset_cons_self _ _), hframes⟩
  | @enter call number line lines rows frames inlined files chunks file hdepth hline hchain hnew =>
    have hsource_eq : Bundling.source? ⟨(call.enter inlined file).opened (headerLines file) ::
        ⟨call, number, lines, rows⟩ :: frames, inlined ++ [file.name], files, chunks⟩ =
        Bundling.source? ⟨⟨call, number, line :: lines, rows⟩ :: frames, inlined, files,
          chunks⟩ := by
      simp [Bundling.source?, Bundling.calls, List.getLast?_cons_cons]
    have hgrow : inlined ⊆ inlined ++ [file.name] := List.subset_append_left _ _
    have hknown : inlined ++ [file.name] ⊆ index.names :=
      List.append_subset.mpr ⟨hs.known, by simpa using (Index.holds_of_included? hline).mem_names⟩
    refine ⟨?_, hknown, fun source hsource => ?_⟩
    · rw [hsource_eq]
      exact hs.order_eq
    · rw [hsource_eq] at hsource
      obtain ⟨hframe, hframes⟩ := List.forall_mem_cons.mp (hs.frames source hsource)
      have hedge := hframe.includes line List.mem_cons_self file hline
      refine List.forall_mem_cons.mpr ⟨⟨hframe.consistent.enter hedge hchain, ?_⟩,
        List.forall_mem_cons.mpr ⟨?_, ?_⟩⟩
      · exact fun inner hinner target htarget =>
          Index.includes_iff_headerLines.mpr ⟨inner, hinner, htarget⟩
      · exact (hframe.advance (List.subset_cons_self _ _)).grow hgrow hknown
      · exact fun frame hmem => (hframes frame hmem).grow hgrow hknown
  | @leave callee body call number lines rows frames inlined files chunks hends =>
    have hsource_eq : Bundling.source? ⟨⟨call, number + 1, lines,
          rows ++ blockRows call.header.name number callee.call.header.name body⟩ :: frames,
          inlined, files, chunks⟩ =
        Bundling.source? ⟨callee :: ⟨call, number, lines, rows⟩ :: frames, inlined, files,
          chunks⟩ := by
      simp [Bundling.source?, Bundling.calls, List.getLast?_cons_cons]
    refine ⟨?_, hs.known, fun source hsource => ?_⟩
    · rw [hsource_eq]
      exact hs.order_eq
    · rw [hsource_eq] at hsource
      obtain ⟨-, hcallers⟩ := List.forall_mem_cons.mp (hs.frames source hsource)
      obtain ⟨hframe, hframes⟩ := List.forall_mem_cons.mp hcallers
      exact List.forall_mem_cons.mpr ⟨hframe.advance (List.Subset.refl _), hframes⟩
  | finish hends =>
    refine ⟨?_, hs.known, fun _ _ => by simp⟩
    have horder := hs.order_eq
    simpa [Bundling.source?, Bundling.calls] using horder

theorem Steps.sound {least : Nat} {s t : Bundling} {calls : List Visit}
    (h : Steps index limit least s calls t) (hs : s.Sound index limit order) :
    t.Sound index limit order :=
  h.keeps (fun _ _ _ hstep => hstep.sound) hs

end Sound

/-! ## Bundles -/

namespace Bundling

variable (tag : String) (files : List TextFile) (limit : Int)

/-- Making the bundle leads to the state. -/
def Reached (s : Bundling) : Prop :=
  ∃ calls, Steps (Index.ofFiles files) limit 0 (start tag files) calls s

theorem exists_steps_start : ∃ inlined, Steps (Index.ofFiles files) limit 0 (start tag files)
    (Bundle.visits tag files limit) ⟨[], inlined, [], (Bundle.ofFiles tag files limit).chunks⟩ := by
  unfold start Bundle.visits Bundle.ofFiles
  cases Sources.ofFiles tag files with
  | none => exact ⟨[], .refl (Nat.zero_le _)⟩
  | some sources => exact steps_expandFiles sources.order [] []

theorem sound_start : ∃ order, (∀ file ∈ order, file ∈ sourcesOf tag files) ∧
    (start tag files).Sound (Index.ofFiles files) limit order := by
  unfold start
  cases hs : Sources.ofFiles tag files with
  | none => exact ⟨[], by simp, rfl, List.nil_subset _, by simp⟩
  | some sources =>
    exact ⟨sources.order, fun file hfile => (mem_order_iff hs file).mp hfile, rfl,
      List.nil_subset _, by simp⟩

theorem not_step_of_done {index : Index} {inlined : List String} {chunks : List Chunk}
    (call : Option Visit) (t : Bundling) : ¬ Step index limit ⟨[], inlined, [], chunks⟩ call t := by
  intro h
  cases h

variable {tag files limit}

theorem Reached.sound {s : Bundling} (h : Reached tag files limit s) (source : TextFile)
    (hsource : s.source? = some source) :
    source ∈ sourcesOf tag files ∧ ∀ call ∈ s.calls,
      Context.Consistent (Index.ofFiles files) limit source call.header
        { call.ctx with inlined := s.inlined } := by
  obtain ⟨calls, hrun⟩ := h
  obtain ⟨order, horder, hstart⟩ := sound_start tag files limit
  have hsound := hrun.sound hstart
  refine ⟨horder source ?_, ?_⟩
  · rw [← hsound.order_eq, hsource]
    simp
  · exact List.forall_mem_map.mpr fun frame hframe =>
      (hsound.frames source hsource frame hframe).consistent

/-- Until a call has returned, the stack below it and the source stay. -/
theorem Reached.within {s t u : Bundling} {v : Visit} {during : List Visit}
    (h : Reached tag files limit s) (hcall : Step (Index.ofFiles files) limit s (some v) t)
    (hduring : Steps (Index.ofFiles files) limit s.frames.length t during u) :
    Reached tag files limit u ∧ s.calls <:+ u.calls ∧ u.source? = s.source? := by
  obtain ⟨before, hbefore⟩ := h
  obtain ⟨hcalls, -, -, hne⟩ := hcall.calls_of_some
  have hopened : s.calls <:+ t.calls := by
    rw [hcalls]
    exact List.suffix_cons v _
  have hkept : s.calls <:+ u.calls := hduring.calls_suffix (by rw [s.length_calls]) hopened
  refine ⟨⟨_, hbefore.trans (.step (Nat.zero_le _) hcall (hduring.mono (Nat.zero_le _)))⟩, hkept,
    ?_⟩
  obtain ⟨above, habove⟩ := hkept
  rw [source?, source?, ← habove, List.getLast?_append_of_ne_nil above hne]

/-- Every call comes to its end, with the stack as it was. -/
theorem Reached.exists_return {s t : Bundling} {v : Visit} (h : Reached tag files limit s)
    (hcall : Step (Index.ofFiles files) limit s (some v) t) :
    ∃ during last back, Steps (Index.ofFiles files) limit (s.frames.length + 1) t during last ∧
      Step (Index.ofFiles files) limit last none back ∧ back.calls = s.calls := by
  obtain ⟨inlined, hall⟩ := exists_steps_start tag files limit
  obtain ⟨-, hlength, -, -⟩ := hcall.calls_of_some
  -- the whole run goes through the call, and no call is open at its end
  obtain ⟨calls, hrun⟩ := h
  obtain ⟨rest, -, hrest⟩ := hall.of_stuck (not_step_of_done limit)
    (hrun.trans (.single (Nat.zero_le _) (Nat.zero_le _) hcall))
  obtain ⟨during, last, back, hduring, hlast, hback⟩ :=
    @Steps.exists_return _ _ _ _ _ s.frames.length _ hrest (by omega) (Nat.zero_le _)
  refine ⟨during, last, back, hduring, hlast, ?_⟩
  obtain ⟨-, hkept, -⟩ := Reached.within ⟨calls, hrun⟩ hcall (hduring.mono (Nat.le_succ _))
  have hafter : s.calls <:+ back.calls := hlast.calls_suffix hkept (by rw [s.length_calls, hback])
  exact (hafter.eq_of_length (by rw [s.length_calls, back.length_calls, hback])).symm

end Bundling

/-- **The context of every call is consistent.**  The calls that making a bundle takes are those of
its small steps.  When one is made, its depth is the number of headers on its chain; these are
different files, all inlined, and the includes lead along them from the source that is being
expanded.  The call returns, and then the context of its caller is as it was.  Until then the open
calls below it stay what they are, and the headers inlined only become more. -/
theorem bundle_calls_consistent (tag : String) (files : List TextFile) (limit : Int) :
    (∃ inlined, Steps (Index.ofFiles files) limit 0 (Bundling.start tag files)
      (Bundle.visits tag files limit) ⟨[], inlined, [], (Bundle.ofFiles tag files limit).chunks⟩) ∧
    (∀ v, v ∈ Bundle.visits tag files limit ↔
      ∃ s t, Bundling.Reached tag files limit s ∧ Step (Index.ofFiles files) limit s (some v) t) ∧
    ∀ s t v, Bundling.Reached tag files limit s → Step (Index.ofFiles files) limit s (some v) t →
      ∃ source ∈ sourcesOf tag files, s.source? = some source ∧
        v.ctx.Consistent (Index.ofFiles files) limit source v.header ∧
        (∃ during last back, Steps (Index.ofFiles files) limit (s.frames.length + 1) t during last ∧
          Step (Index.ofFiles files) limit last none back ∧ back.calls = s.calls) ∧
        ∀ during u, Steps (Index.ofFiles files) limit s.frames.length t during u →
          s.calls <:+ u.calls ∧ s.inlined <+: u.inlined ∧
          ∀ call ∈ u.calls, Context.Consistent (Index.ofFiles files) limit source call.header
            { call.ctx with inlined := u.inlined } := by
  obtain ⟨inlined, hall⟩ := Bundling.exists_steps_start tag files limit
  refine ⟨⟨inlined, hall⟩, fun v => ?_, fun s t v hs hcall => ?_⟩
  · rw [hall.mem_calls_iff (Bundling.not_step_of_done limit) v]
    constructor
    · rintro ⟨before, s, t, hbefore, hcall⟩
      exact ⟨s, t, ⟨before, hbefore⟩, hcall⟩
    · rintro ⟨s, t, ⟨before, hbefore⟩, hcall⟩
      exact ⟨before, s, t, hbefore, hcall⟩
  · obtain ⟨hcalls, hlength, hinlined, hne⟩ := hcall.calls_of_some
    have hsource : s.source? = some (s.calls.getLast hne).header := by
      rw [Bundling.source?, List.getLast?_eq_some_getLast hne]
      rfl
    -- the step that makes the call is itself one of the states until its return
    obtain ⟨hreached, -, hsame⟩ := hs.within hcall (.refl (by omega))
    obtain ⟨hmem, hcontexts⟩ := hreached.sound _ (hsame.trans hsource)
    have hconsistent := hcontexts v (by rw [hcalls]; exact List.mem_cons_self)
    rw [hinlined] at hconsistent
    refine ⟨_, hmem, hsource, hconsistent, hs.exists_return hcall, fun during u hduring => ?_⟩
    obtain ⟨hlater, hkept, hsource_eq⟩ := hs.within hcall hduring
    obtain ⟨-, hthen⟩ := hlater.sound _ (hsource_eq.trans hsource)
    exact ⟨hkept, hcall.inlined_prefix.trans hduring.inlined_prefix, hthen⟩

theorem bundle_calls_consistent_ringProgram :
    ∃ v ∈ Bundle.visits "c" ringProgram 2, v.ctx = ⟨2, ["b.h", "a.h"], ["b.h", "a.h"], 2⟩ ∧
      ∃ s t source, Bundling.Reached "c" ringProgram 2 s ∧
        Step (Index.ofFiles ringProgram) 2 s (some v) t ∧ s.source? = some source ∧
        v.ctx.Consistent (Index.ofFiles ringProgram) 2 source v.header := by
  have hcalls : (Bundle.visits "c" ringProgram 2).map (·.ctx) =
      [⟨1, ["b.h"], ["b.h"], 2⟩, ⟨2, ["b.h", "a.h"], ["b.h", "a.h"], 2⟩] := by decide
  have hmem : (⟨2, ["b.h", "a.h"], ["b.h", "a.h"], 2⟩ : Context) ∈
      (Bundle.visits "c" ringProgram 2).map (·.ctx) := by
    rw [hcalls]
    exact List.mem_cons_of_mem _ List.mem_cons_self
  obtain ⟨v, hv, hctx⟩ := List.mem_map.mp hmem
  obtain ⟨-, hmade, hconsistent⟩ := bundle_calls_consistent "c" ringProgram 2
  obtain ⟨s, t, hs, hcall⟩ := (hmade v).mp hv
  obtain ⟨source, -, hsource, hctx', -⟩ := hconsistent s t v hs hcall
  exact ⟨v, hv, hctx, s, t, source, hs, hcall, hsource, hctx'⟩

end Amalgam
