/-
# Reading elsewhere

Reading looks at what tokens say and copies where they stand. So tokens that are
moved are read as the same program, moved; and if one is at fault, then the same
one, moved (`result_readAll_moved`). Two rows of tokens that say the same are
therefore read alike, whatever blanks or comments stood between them
(`result_readAll_of_same_lexemes`).

Key theorems: `Operand.read_moved`, `Operand.readList_moved`, `Statement.read_moved`,
`Statement.result_readAll_moved`.
-/
import Chip8.Program.Read
import Chip8.Proofs.Moved.Basic

namespace Chip8

variable {f : Position → Position} (stop : Position)

namespace Token

theorem skipSymbol_moved (c : Char) (ts : List Token) :
    skipSymbol (f stop) c (ts.map (moved f)) =
      relocate f (List.map (moved f)) (skipSymbol stop c ts) := by
  cases ts with
  | nil => rfl
  | cons t ts =>
    simp only [List.map_cons, skipSymbol, toLexeme_moved]
    exact relocate_ite rfl rfl

theorem any_head?_moved (k : Lexeme → Bool) (ts : List Token) :
    (ts.map (moved f)).head?.any (fun t => k t.toLexeme) = ts.head?.any fun t => k t.toLexeme := by
  cases ts <;> rfl

end Token

/-- What was read, and the tokens left, moved. -/
abbrev movedRest {α β : Type} (f : Position → Position) (g : α → β) :
    α × List Token → β × List Token := Prod.map g (List.map (Token.moved f))

theorem Value.read_moved (ts : List Token) :
    read (f stop) (ts.map (Token.moved f)) = relocate f (movedRest f id) (read stop ts) := by
  cases ts with
  | nil => rfl
  | cons t ts =>
    simp only [List.map_cons, read, Token.toLexeme_moved]
    split <;> rfl

namespace Operand

theorem readValued_moved (p : Position) (kind : Kind) (ts : List Token) :
    readValued (f stop) (f p) kind (ts.map (Token.moved f)) =
      relocate f (movedRest f (moved f)) (readValued stop p kind ts) :=
  relocate_bind (Value.read_moved stop ts) fun _ => rfl

theorem readBracketed_moved (p : Position) (ts : List Token) :
    readBracketed (f stop) (f p) (ts.map (Token.moved f)) =
      relocate f (movedRest f (moved f)) (readBracketed stop p ts) := by
  unfold readBracketed
  rw [Token.any_head?_moved (fun l => l.isKeyword "I")]
  split
  · rw [← List.map_tail]
    exact relocate_bind (Token.skipSymbol_moved stop ']' ts.tail) fun _ => rfl
  · exact relocate_bind (Value.read_moved stop ts) fun (_, rest) =>
      relocate_bind (Token.skipSymbol_moved stop ']' rest) fun _ => rfl

theorem read_moved (ts : List Token) :
    read (f stop) (ts.map (Token.moved f)) =
      relocate f (movedRest f (moved f)) (read stop ts) := by
  cases ts with
  | nil => rfl
  | cons t ts =>
    simp only [List.map_cons, read, Token.toLexeme_moved, Token.position_moved]
    refine relocate_ite (readBracketed_moved stop t.position ts) ?_
    split
    · exact readValued_moved stop t.position _ ts
    · refine relocate_ite ?_ (readValued_moved stop t.position .byte (t :: ts))
      split <;> rfl

theorem isNext_moved (ts : List Token) : isNext (ts.map (Token.moved f)) = isNext ts := by
  cases ts with
  | nil => rfl
  | cons t ts =>
    simp only [List.map_cons, isNext, Token.toLexeme_moved]
    rw [Token.any_head?_moved (fun l => l.isSymbol ':')]

theorem readMore_moved (ts : List Token) :
    readMore (f stop) (ts.map (Token.moved f)) =
      relocate f (movedRest f (List.map (moved f))) (readMore stop ts) := by
  fun_induction readMore stop ts with
  | case1 => rw [List.map_nil, readMore]; rfl
  | case2 t ts hc e hone =>
    have h := read_moved (f := f) stop ts
    rw [hone] at h
    rw [List.map_cons, readMore, if_pos (by exact hc)]
    split <;> simp_all [relocate]
  | case3 t ts hc o rest hone e hmore ih =>
    have h := read_moved (f := f) stop ts
    rw [hone] at h
    rw [hmore] at ih
    rw [List.map_cons, readMore, if_pos (by exact hc)]
    split <;> simp_all [relocate]
  | case4 t ts hc o rest hone os rest' hmore ih =>
    have h := read_moved (f := f) stop ts
    rw [hone] at h
    rw [hmore] at ih
    rw [List.map_cons, readMore, if_pos (by exact hc)]
    split <;> simp_all [relocate]
  | case5 t ts hc =>
    rw [List.map_cons, readMore, if_neg (by exact hc)]
    rfl

theorem readList_moved (ts : List Token) :
    readList (f stop) (ts.map (Token.moved f)) =
      relocate f (movedRest f (List.map (moved f))) (readList stop ts) := by
  unfold readList
  rw [isNext_moved]
  split
  · exact relocate_bind (read_moved stop ts) fun (_, rest) =>
      relocate_bind (readMore_moved stop rest) fun _ => rfl
  · rfl

end Operand

namespace Statement

theorem readDirective_moved (p : Position) (ts : List Token) :
    readDirective (f stop) (f p) (ts.map (Token.moved f)) =
      relocate f (movedRest f (moved f)) (readDirective stop p ts) := by
  cases ts with
  | nil => rfl
  | cons t ts =>
    simp only [List.map_cons, readDirective, Token.toLexeme_moved]
    exact relocate_ite (relocate_bind (Operand.readList_moved stop ts) fun _ => rfl) rfl

theorem read_moved (ts : List Token) :
    read (f stop) (ts.map (Token.moved f)) =
      relocate f (movedRest f (moved f)) (read stop ts) := by
  cases ts with
  | nil => rfl
  | cons t ts =>
    simp only [List.map_cons, read, Token.toLexeme_moved, Token.position_moved]
    split
    · exact relocate_bind (Token.skipSymbol_moved stop ':' ts) fun _ => rfl
    · exact relocate_bind (Operand.readList_moved stop ts) fun _ => rfl
    · exact relocate_ite (readDirective_moved stop t.position ts) rfl

/-- **Tokens are read in the same way wherever they stand.** -/
theorem result_readAll_moved (ts : List Token) :
    (readAll (f stop) (ts.map (Token.moved f))).result =
      relocate f (List.map (moved f)) (readAll stop ts).result := by
  fun_induction readAll stop ts with
  | case1 => rw [List.map_nil, readAll_nil]; rfl
  | case2 t ts e hone =>
    have h := read_moved (f := f) stop (t :: ts)
    rw [hone] at h
    rw [readAll_error (by simp) h]
    rfl
  | case3 t ts s rest hone ih =>
    have h := read_moved (f := f) stop (t :: ts)
    rw [hone] at h
    rw [readAll_ok h]
    simp only [Outcome.result_bind, Outcome.result_raise, Outcome.result_map]
    exact relocate_map ih fun ss => rfl

/-- Tokens that say the same are read as the same program, its positions forgotten. -/
theorem result_readAll_of_same_lexemes {ts us : List Token}
    (h : ts.map Token.toLexeme = us.map Token.toLexeme) :
    relocate (fun _ => .start "") (List.map unlocated) (readAll stop ts).result =
      relocate (fun _ => .start "") (List.map unlocated) (readAll stop us).result := by
  have hsame : ts.map (Token.moved fun _ => .start "") =
      us.map (Token.moved fun _ => .start "") := by
    have hmap := congrArg (List.map fun l : Lexeme => (⟨l, .start ""⟩ : Token)) h
    rwa [List.map_map, List.map_map] at hmap
  calc relocate (fun _ => .start "") (List.map unlocated) (readAll stop ts).result
      = (readAll (.start "") (ts.map (Token.moved fun _ => .start ""))).result :=
        (result_readAll_moved (f := fun _ => .start "") stop ts).symm
    _ = (readAll (.start "") (us.map (Token.moved fun _ => .start ""))).result := by rw [hsame]
    _ = relocate (fun _ => .start "") (List.map unlocated) (readAll stop us).result :=
        result_readAll_moved (f := fun _ => .start "") stop us

end Statement
end Chip8
