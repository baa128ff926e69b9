/-
# Splitting loses nothing

A text that is split into tokens is put together again from their texts and what
was skipped: white space and comments (`Skipped`). Every token stands where its
position says, counted in the text before it (`Position.Counts`), and is as long as
its class allows. A text has at most one such splitting, and `Token.scan` finds it
(`scan_eq_ok_iff_splits`).

The relation `Splits` takes a text token by token, each behind what is skipped in
front of it. `Stretch` says the same of the whole row at once.

Key definitions: `Position.Counts`, `Skipped`, `Splits`, `Stretch`, `Stretch.Stands`.
Key theorems: `Position.Counts.advance`, `scan_skipped`, `scan_eq_ok_iff_splits`,
`tokenize_ok_iff_lossless`.
-/
import Chip8.Proofs.Splitting.Longest

namespace Chip8

/-! ### Positions, counted in the text -/

/-- The position behind the text `cs` of `source`: its bytes, its newlines, and its characters
since the last newline are counted. -/
structure Position.Counts (source : String) (cs : List Char) (p : Position) : Prop where
  names : p.source = source
  offset : p.offset = (String.ofList cs).utf8ByteSize
  line : p.line = 1 + cs.count '\n'
  column : p.column = 1 + (cs.reverse.takeWhile (· != '\n')).length

namespace Position

variable {source : String} {cs : List Char} {p q : Position}

theorem counts_start (source : String) : (start source).Counts source [] := ⟨rfl, rfl, rfl, rfl⟩

/-- There is one position behind a text. -/
theorem Counts.unique (hp : p.Counts source cs) (hq : q.Counts source cs) : p = q := by
  obtain ⟨source', offset, line, column⟩ := p
  obtain ⟨source'', offset', line', column'⟩ := q
  obtain ⟨rfl, rfl, rfl, rfl⟩ := hp
  obtain ⟨rfl, rfl, rfl, rfl⟩ := hq
  rfl

theorem Counts.step (h : p.Counts source cs) (c : Char) :
    (p.step c).Counts source (cs ++ [c]) where
  names := (source_step p c).trans h.names
  offset := by
    rw [offset_step, h.offset, String.ofList_append, String.utf8ByteSize_append]
    simp
  line := by
    rw [line_step, h.line, List.count_append, List.count_singleton, Nat.add_assoc]
    simp
  column := by
    rw [column_step, List.reverse_append, List.reverse_singleton, List.singleton_append,
      List.takeWhile_cons]
    by_cases hc : c = '\n'
    · simp [hc]
    · have hcolumn := h.column
      simp only [hc, if_false, bne_iff_ne, ne_eq, not_false_eq_true, if_true, List.length_cons]
      omega

/-- Walking over a text counts it. -/
theorem Counts.advance (h : p.Counts source cs) (ds : List Char) :
    (p.advance ds).Counts source (cs ++ ds) := by
  induction ds generalizing p cs with
  | nil => simpa [advance_nil] using h
  | cons d ds ih =>
    rw [advance_cons, ← List.singleton_append, ← List.append_assoc]
    exact ih (h.step d)

end Position

/-! ### What is skipped -/

/-- White space and comments in front of a text. -/
inductive Skipped : List Char → List Char → Prop where
  | nil {rest : List Char} : Skipped [] rest
  | blank {c : Char} {cs rest : List Char} (h : isBlank c = true) (more : Skipped cs rest) :
      Skipped (c :: cs) rest
  | comment {note cs rest : List Char} (h : IsComment note (cs ++ rest))
      (more : Skipped cs rest) : Skipped (note ++ cs) rest

namespace Token

theorem scan_comment {note rest : List Char} (h : IsComment note rest) (p : Position) :
    scan p (note ++ rest) = scan (p.advance note) rest := by
  obtain ⟨cs, rfl, hread⟩ := h.readLexeme
  rw [List.cons_append, scan_ok (by decide) hread]
  cases scan (p.advance (';' :: cs)) rest with
  | error f => rfl
  | ok ts => rfl

/-- What is skipped only moves the position. -/
theorem scan_skipped {cs rest : List Char} (h : Skipped cs rest) (p : Position) :
    scan p (cs ++ rest) = scan (p.advance cs) rest := by
  induction h generalizing p with
  | nil => rfl
  | blank hc more ih => rw [List.cons_append, scan_blank hc, ih, Position.advance_cons]
  | comment hnote more ih => rw [List.append_assoc, scan_comment hnote, ih, Position.advance_append]

end Token

/-! ### Token by token -/

/-- Behind the text `front` of `source`, the text `cs` is split into the tokens `ts`: each stands
behind what is skipped, and the last one is the end of the input. -/
inductive Splits (source : String) : List Char → List Char → List Token → Prop where
  | done {front gap : List Char} {stop : Position} (skipped : Skipped gap [])
      (position : stop.Counts source (front ++ gap)) :
      Splits source front gap [⟨.endOfInput, stop⟩]
  | token {front gap rest : List Char} {t : Token} {ts : List Token}
      (skipped : Skipped gap (t.text.toList ++ rest))
      (position : t.position.Counts source (front ++ gap)) (longest : t.toLexeme.Longest rest)
      (more : Splits source (front ++ (gap ++ t.text.toList)) rest ts) :
      Splits source front (gap ++ (t.text.toList ++ rest)) (t :: ts)

variable {source : String} {front cs : List Char} {ts : List Token}

/-- A token may stand at the very front. -/
theorem Splits.unskipped {kind : Token.Kind} {text rest : List Char} {p : Position}
    (hp : p.Counts source front) (longest : Lexeme.Longest ⟨kind, String.ofList text⟩ rest)
    (more : Splits source (front ++ text) rest ts) :
    Splits source front (text ++ rest) (⟨⟨kind, String.ofList text⟩, p⟩ :: ts) := by
  have htoken := @Splits.token source front [] rest ⟨⟨kind, String.ofList text⟩, p⟩ ts .nil
    (by simpa using hp) longest (by simpa using more)
  simpa using htoken

/-- In front of a text that is split, more may be skipped. -/
theorem Splits.skip {gap : List Char} (h : Splits source (front ++ gap) cs ts)
    (hgap : ∀ {ds rest}, ds ++ rest = cs → Skipped ds rest → Skipped (gap ++ ds) rest) :
    Splits source front (gap ++ cs) ts := by
  cases h with
  | done skipped position =>
    refine .done (hgap (List.append_nil cs) skipped) ?_
    rwa [← List.append_assoc]
  | @token _ ds rest t ts skipped position longest more =>
    rw [← List.append_assoc gap]
    refine .token (hgap rfl skipped) ?_ longest ?_
    · rwa [← List.append_assoc]
    · rwa [List.append_assoc gap, ← List.append_assoc front]

namespace Token

/-- The tokens that are found split the text. -/
theorem splits_of_scan {p : Position} (h : scan p cs = .ok ts) (hp : p.Counts source front) :
    Splits source front cs ts := by
  fun_induction scan p cs generalizing front ts with
  | case1 p =>
    cases h
    exact .done .nil (by rwa [List.append_nil])
  | case2 p c cs hb ih =>
    exact Splits.skip (ih h (hp.step c)) fun _ hmore => .blank hb hmore
  | case3 => cases h
  | case4 => cases h
  | case5 p c cs hb piece hcut us hus hk ih =>
    cases h
    rcases longest_or_isComment_of_readLexeme hcut with ⟨-, hcomment⟩ | hlongest
    · rw [← readLexeme_append hcut]
      refine Splits.skip (ih hus (hp.advance piece.text)) fun hrest hmore => .comment ?_ hmore
      rwa [hrest]
    · exact absurd hk hlongest.kind_ne.1
  | case6 p c cs hb piece hcut us hus hk ih =>
    cases h
    rcases longest_or_isComment_of_readLexeme hcut with ⟨hcomment, -⟩ | hlongest
    · exact absurd hcomment hk
    · rw [← readLexeme_append hcut]
      exact Splits.unskipped hp hlongest (ih hus (hp.advance piece.text))

/-- Tokens that split the text are found. -/
theorem scan_of_splits {p : Position} (h : Splits source front cs ts)
    (hp : p.Counts source front) : scan p cs = .ok ts := by
  induction h generalizing p with
  | @done front gap stop skipped position =>
    have hscan := scan_skipped skipped p
    rw [List.append_nil] at hscan
    rw [hscan, scan_nil, (hp.advance gap).unique position]
  | @token front gap rest t ts skipped position longest more ih =>
    obtain ⟨c, cs, htext⟩ := longest.exists_cons
    obtain ⟨hb, hread⟩ := longest.readLexeme htext
    have hlist : t.text.toList = c :: cs := by rw [htext, String.toList_ofList]
    have hrest := ih (hp.advance (gap ++ t.text.toList))
    rw [hlist, Position.advance_append] at hrest
    rw [scan_skipped skipped, hlist, List.cons_append, scan_ok hb hread, hrest,
      (hp.advance gap).unique position]
    simp only [Except.map, if_neg longest.kind_ne.1, ← htext]

/-- **The tokens of a text are those that split it.** -/
theorem scan_eq_ok_iff_splits {text : List Char} :
    scan (.start source) text = .ok ts ↔ Splits source [] text ts :=
  ⟨fun h => splits_of_scan h (Position.counts_start source),
    fun h => scan_of_splits h (Position.counts_start source)⟩

end Token

/-! ### The whole row -/

/-- A token, and what is skipped in front of it. -/
structure Stretch where
  skipped : List Char
  token : Token

namespace Stretch

/-- The text of a stretch. -/
def chars (s : Stretch) : List Char := s.skipped ++ s.token.text.toList

/-- The stretch stands between the texts `front` and `rest` of `source`: all that is skipped is
white space and comments, the token begins where its position says, and it is as long as its class
allows. -/
structure Stands (source : String) (front : List Char) (s : Stretch) (rest : List Char) : Prop where
  skipped : Skipped s.skipped (s.token.text.toList ++ rest)
  position : s.token.position.Counts source (front ++ s.skipped)
  longest : s.token.toLexeme.Longest rest

/-- Behind the text `front`, the stretches stand one behind another, and `last` is left. -/
def AllStand (source : String) (front : List Char) (ss : List Stretch) (last : List Char) : Prop :=
  ∀ before s after, ss = before ++ s :: after →
    s.Stands source (front ++ before.flatMap chars) (after.flatMap chars ++ last)

variable {s : Stretch} {ss : List Stretch} {last : List Char}

theorem allStand_nil : AllStand source front [] last := by
  intro before s after h
  simp at h

theorem allStand_cons_iff :
    AllStand source front (s :: ss) last ↔
      s.Stands source front (ss.flatMap chars ++ last) ∧
        AllStand source (front ++ s.chars) ss last := by
  constructor
  · intro h
    have hs := h [] s ss rfl
    rw [List.flatMap_nil, List.append_nil] at hs
    refine ⟨hs, fun before t after hss => ?_⟩
    have ht := h (s :: before) t after (congrArg (s :: ·) hss)
    rwa [List.flatMap_cons, ← List.append_assoc] at ht
  · rintro ⟨hs, hss⟩ before t after h
    cases before with
    | nil =>
      obtain ⟨rfl, rfl⟩ := List.cons.inj h
      rwa [List.flatMap_nil, List.append_nil]
    | cons u before =>
      obtain ⟨rfl, htail⟩ := List.cons.inj h
      rw [List.flatMap_cons, ← List.append_assoc]
      exact hss before t after htail

end Stretch

/-- A text that is split token by token is a row of stretches. -/
theorem Splits.exists_stretches (h : Splits source front cs ts) :
    ∃ ss last stop, ts = ss.map Stretch.token ++ [⟨.endOfInput, stop⟩] ∧
      cs = ss.flatMap Stretch.chars ++ last ∧ Skipped last [] ∧ stop.Counts source (front ++ cs) ∧
        Stretch.AllStand source front ss last := by
  induction h with
  | @done front gap stop skipped position =>
    exact ⟨[], gap, stop, rfl, rfl, skipped, position, Stretch.allStand_nil⟩
  | @token front gap rest t ts skipped position longest more ih =>
    obtain ⟨ss, last, stop, rfl, hrest, hlast, hstop, hss⟩ := ih
    refine ⟨⟨gap, t⟩ :: ss, last, stop, rfl, ?_, hlast, ?_, ?_⟩
    · rw [List.flatMap_cons, Stretch.chars, List.append_assoc, List.append_assoc, hrest]
    · rwa [List.append_assoc, List.append_assoc] at hstop
    · rw [hrest] at skipped longest
      exact Stretch.allStand_cons_iff.mpr ⟨⟨skipped, position, longest⟩, hss⟩

/-- A row of stretches is split into its tokens. -/
theorem splits_of_stretches {ss : List Stretch} {last : List Char} {stop : Position}
    (hlast : Skipped last [])
    (hstop : stop.Counts source (front ++ (ss.flatMap Stretch.chars ++ last)))
    (hss : Stretch.AllStand source front ss last) :
    Splits source front (ss.flatMap Stretch.chars ++ last)
      (ss.map Stretch.token ++ [⟨.endOfInput, stop⟩]) := by
  induction ss generalizing front with
  | nil => exact .done hlast hstop
  | cons s ss ih =>
    obtain ⟨hs, hss⟩ := Stretch.allStand_cons_iff.mp hss
    rw [List.flatMap_cons, List.append_assoc] at hstop ⊢
    rw [← List.append_assoc] at hstop
    have hmore := ih hstop hss
    rw [Stretch.chars, List.append_assoc]
    exact .token hs.skipped hs.position hs.longest hmore

/-! ### Order and slices -/

theorem Splits.offset_le (h : Splits source front cs ts) :
    ∀ t ∈ ts, (String.ofList front).utf8ByteSize ≤ t.position.offset := by
  induction h with
  | @done front gap stop skipped position =>
    have hoffset := position.offset
    rw [String.ofList_append, String.utf8ByteSize_append] at hoffset
    refine List.forall_mem_singleton.mpr ?_
    show _ ≤ stop.offset
    omega
  | @token front gap rest t ts skipped position longest more ih =>
    have hoffset := position.offset
    rw [String.ofList_append, String.utf8ByteSize_append] at hoffset
    refine List.forall_mem_cons.mpr ⟨by omega, fun u hu => ?_⟩
    have hle := ih u hu
    rw [String.ofList_append, String.utf8ByteSize_append] at hle
    omega

/-- Every token ends before the next one begins. -/
theorem Splits.pairwise_offset (h : Splits source front cs ts) :
    ts.Pairwise fun t u => t.position.offset + t.text.utf8ByteSize ≤ u.position.offset := by
  induction h with
  | done skipped position => exact List.pairwise_singleton ..
  | @token front gap rest t ts skipped position longest more ih =>
    refine List.pairwise_cons.mpr ⟨fun u hu => ?_, ih⟩
    have hoffset := position.offset
    have hle := more.offset_le u hu
    rw [String.ofList_append, String.utf8ByteSize_append] at hoffset hle
    rw [String.ofList_append, String.utf8ByteSize_append, String.ofList_toList] at hle
    omega

/-- The text of the token is the slice of `text` at the token's offset. -/
def Token.IsSliceOf (text : String) (t : Token) : Prop :=
  text.toByteArray.extract t.position.offset (t.position.offset + t.text.utf8ByteSize) =
    t.text.toByteArray

/-- The bytes of the middle of three texts. -/
theorem extract_toByteArray_middle (a b c : String) :
    (a ++ b ++ c).toByteArray.extract a.utf8ByteSize (a.utf8ByteSize + b.utf8ByteSize) =
      b.toByteArray := by
  have hfront : (a ++ b ++ c).toByteArray.extract 0 (a.utf8ByteSize + b.utf8ByteSize) =
      (a ++ b).toByteArray := by
    rw [String.toByteArray_append]
    exact ByteArray.extract_append_eq_left (by simp)
  have hmiddle : (a ++ b).toByteArray.extract a.utf8ByteSize (a.utf8ByteSize + b.utf8ByteSize) =
      b.toByteArray := by
    rw [String.toByteArray_append]
    exact ByteArray.extract_append_eq_right (by simp) (by simp)
  rw [← hfront, ByteArray.extract_extract] at hmiddle
  simpa using hmiddle

theorem Stretch.Stands.isSliceOf {s : Stretch} {rest : List Char} {text : String}
    (h : s.Stands source front rest) (htext : text.toList = front ++ (s.chars ++ rest)) :
    s.token.IsSliceOf text := by
  have hsplit :
      text = String.ofList (front ++ s.skipped) ++ s.token.text ++ String.ofList rest := by
    apply String.toList_injective
    simp [htext, chars]
  rw [Token.IsSliceOf, h.position.offset, hsplit]
  exact extract_toByteArray_middle _ _ _

/-- **Splitting loses nothing.** A text is split into tokens iff they are the tokens of a row of
stretches that make up the text, with only white space and comments left, and behind them the end
of the input at the end of the text. In each stretch only white space and comments are skipped,
the token stands where its position says, and it is a word, number or symbol as long as it can be.
Then the text of each token is not empty and is the slice at its offset, no token is a comment, and
they stand in order and apart. -/
theorem tokenize_ok_iff_lossless (source text : String) (ts : List Token) :
    (Token.tokenize source text).result = .ok ts ↔
      ∃ ss last stop, ts = ss.map Stretch.token ++ [⟨.endOfInput, stop⟩] ∧
        text.toList = ss.flatMap Stretch.chars ++ last ∧ Skipped last [] ∧
        stop.Counts source text.toList ∧ Stretch.AllStand source [] ss last ∧
        (∀ s ∈ ss, s.token.kind ≠ .endOfInput ∧ s.token.kind ≠ .comment ∧ s.token.text ≠ "" ∧
          s.token.IsSliceOf text) ∧
        ts.Pairwise fun t u => t.position.offset + t.text.utf8ByteSize ≤ u.position.offset := by
  rw [Token.result_tokenize, Token.scan_eq_ok_iff_splits]
  constructor
  · intro h
    obtain ⟨ss, last, stop, hts, htext, hlast, hstop, hss⟩ := h.exists_stretches
    refine ⟨ss, last, stop, hts, htext, hlast, hstop, hss, fun s hs => ?_, h.pairwise_offset⟩
    obtain ⟨before, after, rfl⟩ := List.append_of_mem hs
    have hstands := hss before s after rfl
    have hsplit : text.toList =
        before.flatMap Stretch.chars ++ (s.chars ++ (after.flatMap Stretch.chars ++ last)) := by
      rw [htext, List.flatMap_append, List.flatMap_cons]
      simp only [List.append_assoc]
    obtain ⟨hcomment, hend⟩ := hstands.longest.kind_ne
    obtain ⟨c, cs, hcs⟩ := hstands.longest.exists_cons
    exact ⟨hend, hcomment, by simp [hcs], hstands.isSliceOf hsplit⟩
  · rintro ⟨ss, last, stop, rfl, htext, hlast, hstop, hss, -⟩
    rw [htext] at hstop ⊢
    exact splits_of_stretches hlast hstop hss

end Chip8
