import Amalgam.Proofs.Expansion
import Amalgam.Unit.Session

/-!
# Sessions

All contexts of a session share the headers inlined so far.  Whatever is expanded in whichever of
them, and in whatever order they are entered and left, a header is inlined at most once.

* `inlines_step` — what one step adds to the headers inlined are the blocks that it opens, each of
  them new.
* `inlines_outputs` — so do all steps together.
* `session_inlines_each_once` — the same, spelled out from the start of a session.
-/

set_option autoImplicit false

namespace Amalgam.Session

variable {index : Index}

/-- Whether a step leaves the session and starts another one. -/
def Move.isRestart : Move → Bool
  | .restart _ => true
  | _ => false

/-- The session after steps. -/
def after (index : Index) (s : Session) (moves : List Move) : Session :=
  moves.foldl (fun s m => (s.step index m).1) s

/-- The rows of the expansions in a session, one list for each, in order. -/
def outputs (index : Index) (s : Session) (moves : List Move) : List (List Row) :=
  (s.run index moves).filterMap (·.2)

theorem outputs_cons (s : Session) (m : Move) (moves : List Move) :
    s.outputs index (m :: moves) = (s.step index m).2.toList ++
      (s.step index m).1.outputs index moves := by
  have hrun : s.run index (m :: moves) =
      ((s.step index m).1.current, (s.step index m).2) :: (s.step index m).1.run index moves := rfl
  unfold outputs
  rw [hrun, List.filterMap_cons]
  cases (s.step index m).2 <;> rfl

/-- What a step puts out: the rows of an expansion, or nothing. -/
theorem inlines_step (s : Session) {m : Move} (hm : m.isRestart = false) :
    Row.Inlines s.current.inlined (s.step index m).2.toList.flatten
      (s.step index m).1.current.inlined := by
  cases m with
  | expand origin code => simpa [step] using inlines_expand s.current origin code
  | enter key => exact .of_opened_eq_nil rfl _
  | leave =>
    unfold step
    cases s.outer with
    | nil => exact .of_opened_eq_nil rfl _
    | cons ctx outer => exact .of_opened_eq_nil rfl _
  | restart ctx => cases hm

theorem wellNested_step (s : Session) (m : Move) :
    ∀ rows ∈ (s.step index m).2, Row.WellNested rows := by
  intro rows hrows
  cases m with
  | expand origin code =>
    obtain rfl := Option.some.inj hrows
    exact wellNested_expand s.current origin code
  | enter key => cases hrows
  | leave =>
    unfold step at hrows
    cases ho : s.outer with
    | nil => rw [ho] at hrows; cases hrows
    | cons ctx outer => rw [ho] at hrows; cases hrows
  | restart ctx => cases hrows

/-- **What a session adds to the headers inlined are the blocks that it opens, each of them
new.** -/
theorem inlines_outputs (s : Session) (moves : List Move)
    (hmoves : ∀ m ∈ moves, m.isRestart = false) :
    Row.Inlines s.current.inlined (s.outputs index moves).flatten
      (s.after index moves).current.inlined := by
  induction moves generalizing s with
  | nil => exact .of_opened_eq_nil rfl _
  | cons m moves ih =>
    have hstep := @inlines_step index s m (hmoves m (by simp))
    have hrest := ih (s.step index m).1 fun m' hm' => hmoves m' (List.mem_cons_of_mem m hm')
    rw [outputs_cons, List.flatten_append]
    exact hstep.append hrest

theorem wellNested_outputs (s : Session) (moves : List Move) :
    ∀ rows ∈ s.outputs index moves, Row.WellNested rows := by
  induction moves generalizing s with
  | nil => intro rows hrows; cases hrows
  | cons m moves ih =>
    intro rows hrows
    rw [outputs_cons] at hrows
    rcases List.mem_append.mp hrows with hrows | hrows
    · exact wellNested_step s m rows (by simpa using hrows)
    · exact ih _ rows hrows

/-- **A session inlines each header at most once.**  The blocks of all its expansions together are
well nested, no header is opened twice and none that was inlined before the session, and the headers
inlined at its end are those at its start and the ones it opened. -/
theorem session_inlines_each_once (index : Index) (ctx : Context) (moves : List Move)
    (hmoves : ∀ m ∈ moves, m.isRestart = false) :
    (∀ rows ∈ (start ctx).outputs index moves, Row.WellNested rows) ∧
      (((start ctx).outputs index moves).flatMap Row.opened).Nodup ∧
      (∀ key ∈ ((start ctx).outputs index moves).flatMap Row.opened, key ∉ ctx.inlined) ∧
      ((start ctx).after index moves).current.inlined =
        ctx.inlined ++ ((start ctx).outputs index moves).flatMap Row.opened := by
  have h := @inlines_outputs index (start ctx) moves hmoves
  rw [← Row.opened_flatten]
  exact ⟨wellNested_outputs (start ctx) moves, h.nodup, h.fresh, h.after_eq⟩

/-- Two headers that include each other. -/
def mutualHeaders : List TextFile :=
  [⟨"a.h", "#include \"b.h\"\nA\n"⟩, ⟨"b.h", "B\n#include \"a.h\""⟩]

/-- Three texts are expanded, the second of them inside a header. -/
def threeTexts : List Move :=
  [.expand "m.c" "#include \"a.h\"\nend", .enter "q.h", .expand "n.c" "#include \"b.h\"\n", .leave,
    .expand "o.c" "#include \"c.h\""]

theorem session_inlines_each_once_threeTexts :
    (∀ m ∈ threeTexts, m.isRestart = false) ∧
      ((start ⟨3, ["x.h"], ["z.h"], 9⟩).outputs (Index.ofFiles mutualHeaders) threeTexts).flatMap
        Row.opened = ["a.h", "b.h"] ∧
      ((start ⟨3, ["x.h"], ["z.h"], 9⟩).after (Index.ofFiles mutualHeaders)
        threeTexts).current.inlined = ["z.h"] ++
          ((start ⟨3, ["x.h"], ["z.h"], 9⟩).outputs (Index.ofFiles mutualHeaders)
            threeTexts).flatMap Row.opened :=
  ⟨by decide, by decide,
    (session_inlines_each_once (Index.ofFiles mutualHeaders) ⟨3, ["x.h"], ["z.h"], 9⟩ threeTexts
      (by decide)).2.2.2⟩

end Amalgam.Session
