import AgentGraph.Text.Blank

/-!
# Splitting

A text is split at each mark, and nowhere else: what stands before a mark and what stands after it
are split on their own (`splitBy_append`), and a piece without a mark stays whole (`splitBy_none`).
So pieces with a mark behind each come back (`splitBy_flatMap`).
-/

namespace AgentGraph.Text

variable {p : Char → Bool}

/-- A mark divides a text. -/
theorem splitBy_append {mark : Char} (hmark : p mark = true) (piece cs rest : List Char) :
    splitBy p piece (cs ++ mark :: rest) = splitBy p piece cs ++ splitBy p [] rest := by
  induction cs generalizing piece with
  | nil => simp [splitBy, hmark]
  | cons c cs ih =>
      rw [List.cons_append, splitBy, splitBy]
      split
      · rw [ih, List.cons_append]
      · exact ih _

/-- A text without a mark is one piece. -/
theorem splitBy_none {cs : List Char} (hcs : ∀ c ∈ cs, p c = false) (piece : List Char) :
    splitBy p piece cs = [piece.reverse ++ cs] := by
  induction cs generalizing piece with
  | nil => simp [splitBy]
  | cons c cs ih =>
      obtain ⟨hc, hcs⟩ := List.forall_mem_cons.mp hcs
      rw [splitBy, if_neg (by simp [hc]), ih hcs]
      simp

/-- Pieces with a mark behind each, and nothing behind the last mark. -/
theorem splitBy_flatMap {mark : Char} (hmark : p mark = true) {pieces : List (List Char)}
    (hpieces : ∀ piece ∈ pieces, ∀ c ∈ piece, p c = false) :
    splitBy p [] (pieces.flatMap (· ++ [mark])) = pieces ++ [[]] := by
  induction pieces with
  | nil => rfl
  | cons piece pieces ih =>
      obtain ⟨hpiece, hpieces⟩ := List.forall_mem_cons.mp hpieces
      rw [List.flatMap_cons, List.append_assoc, List.singleton_append, splitBy_append hmark,
        splitBy_none hpiece, ih hpieces]
      rfl

end AgentGraph.Text
