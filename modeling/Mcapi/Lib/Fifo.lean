/-
  Mcapi.Lib.Fifo — channels that keep the order of their messages.

  A channel is the list of the messages in it, the next one first. What a step of some
  system puts in goes to the back, and what it takes out comes from the front
  (`Moves`). Over any run, what was in the channel followed by what was put in is what was
  taken out followed by what is left (`run_moves`); so from an empty channel the `i`-th
  message taken is the `i`-th one put in (`taken_is_put`).
-/

import Mcapi.Lib.Runs

namespace Fifo

variable {L M : Type} {puts takes : L → List M}

/-- A step that takes from the front and puts at the back. -/
def Moves (puts takes : L → List M) (q : List M) (l : L) (q' : List M) : Prop := q ++ puts l = takes l ++ q'

theorem Moves.put {q : List M} {l : L} (h : takes l = []) : Moves puts takes q l (q ++ puts l) := by
  rw [Moves, h, List.nil_append]

theorem Moves.take {q : List M} {l : L} {m : M} (hp : puts l = []) (ht : takes l = [m]) :
    Moves puts takes (m :: q) l q := by
  rw [Moves, hp, ht, List.append_nil, List.singleton_append]

/-- What goes in comes out, or is still there, in order. -/
theorem run_moves {q q' : List M} {ls : List L} (h : Lts.Run (Moves puts takes) q ls q') :
    q ++ ls.flatMap puts = ls.flatMap takes ++ q' := by
  induction h with
  | nil q => rw [List.flatMap_nil, List.flatMap_nil, List.append_nil, List.nil_append]
  | cons hs _ ih =>
    rw [List.flatMap_cons, List.flatMap_cons, ← List.append_assoc, hs, List.append_assoc, ih, List.append_assoc]

theorem taken_is_put {q : List M} {ls : List L} (h : Lts.Run (Moves puts takes) [] ls q) {i : Nat} {m : M}
    (hi : (ls.flatMap takes)[i]? = some m) : (ls.flatMap puts)[i]? = some m := by
  have hall := run_moves h
  rw [List.nil_append] at hall
  obtain ⟨hlt, -⟩ := List.getElem?_eq_some_iff.mp hi
  rw [hall, List.getElem?_append_left hlt]
  exact hi

end Fifo
