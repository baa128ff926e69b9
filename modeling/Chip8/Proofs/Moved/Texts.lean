/-
# Texts that say the same

Two texts may have other blanks, line breaks, comments and names, and be split
into tokens that say the same. What they are assembled to is then the same, but
for positions; and if they are at fault, then with the same fault, at tokens of
the same number (`assemble_of_same_lexemes`). For this, what the tokens say is
written down once more with numbers for positions (`Token.numbered`). Both rows are
this one moved, each number to where the token with this number stands
(`Token.placeIn`), and reading and assembling do the same wherever tokens stand.

Key definitions: `Token.numbered`, `Token.placeIn`.
Key theorems: `Token.map_moved_numbered`, `Program.result_read_moved`,
`result_assemble_of_tokenize`, `assemble_of_same_lexemes`.
-/
import Chip8.Proofs.Joining.Splitting
import Chip8.Proofs.Moved.Assembling
import Chip8.Proofs.Moved.Reading

namespace Chip8

/-! ### Numbers for positions -/

namespace Token

/-- The lexemes as tokens, each with its number in the row for an offset. -/
def numbered (ls : List Lexeme) : List Token := ls.mapIdx fun i l => ⟨l, ⟨"", i, 0, 0⟩⟩

/-- Where the token stands whose number is the offset of `p`, or else the last one. -/
def placeIn (ts : List Token) (p : Position) : Position :=
  match ts[min p.offset (ts.length - 1)]? with
  | some t => t.position
  | none => p

/-- All places in a row are those of its tokens, and the number says of which. -/
theorem placeIn_eq {ts : List Token} (hne : ts ≠ []) (p : Position) :
    ∃ t, ts[min p.offset (ts.length - 1)]? = some t ∧ placeIn ts p = t.position := by
  have hpos : 0 < ts.length := List.length_pos_iff.mpr hne
  have hlt : min p.offset (ts.length - 1) < ts.length := by omega
  refine ⟨ts[min p.offset (ts.length - 1)], List.getElem?_eq_getElem hlt, ?_⟩
  rw [placeIn, List.getElem?_eq_getElem hlt]

/-- A row of tokens is what it says, each number moved to the token with this number. -/
theorem map_moved_numbered (ts : List Token) :
    (numbered (ts.map toLexeme)).map (moved (placeIn ts)) = ts := by
  refine List.ext_getElem (by simp [numbered]) fun i hi hi' => ?_
  have hnumber : min i (ts.length - 1) = i := by omega
  have hplace : placeIn ts ⟨"", i, 0, 0⟩ = ts[i].position := by
    rw [placeIn]
    simp only [hnumber, List.getElem?_eq_getElem hi']
  simp only [numbered, List.getElem_map, List.getElem_mapIdx, moved, hplace]

theorem ne_nil_of_tokenize {source text : String} {ts : List Token}
    (h : (tokenize source text).result = .ok ts) : ts ≠ [] := by
  rw [result_tokenize] at h
  exact ne_nil_of_scan h

theorem numbered_ne_nil {ts : List Token} (hne : ts ≠ []) : numbered (ts.map toLexeme) ≠ [] := by
  intro hnil
  have hlength := congrArg List.length hnil
  simp [numbered, hne] at hlength

end Token

/-! ### From the tokens on -/

namespace Program

variable {f : Position → Position}

theorem body_moved (ts : List Token) :
    body (ts.map (Token.moved f)) = (body ts).map (Token.moved f) := List.takeWhile_map ..

/-- The end of the input moves with the tokens, if there are any. -/
theorem stop_moved {ts : List Token} (hne : ts ≠ []) :
    stop (ts.map (Token.moved f)) = f (stop ts) := by
  have hlast : ∃ t, ts.getLast? = some t := ⟨ts.getLast hne, List.getLast?_eq_some_getLast hne⟩
  obtain ⟨t, ht⟩ := hlast
  have hfind : (ts.map (Token.moved f)).find? (·.kind == .endOfInput) =
      (ts.find? (·.kind == .endOfInput)).map (Token.moved f) := List.find?_map ..
  rw [stop, stop, hfind, List.getLast?_map, ht]
  cases ts.find? (·.kind == .endOfInput) <;> rfl

/-- A row of tokens is read in the same way wherever the tokens stand. -/
theorem result_read_moved {ts : List Token} (hne : ts ≠ []) :
    (read (ts.map (Token.moved f))).result =
      relocate f (List.map (Statement.moved f)) (read ts).result := by
  rw [read, read, body_moved, stop_moved hne]
  exact Statement.result_readAll_moved (stop ts) (body ts)

end Program

variable {source source' text text' : String} {ts ts' : List Token}

/-- A text is assembled like the row of what its tokens say, at the places of the tokens. -/
theorem result_assemble_of_tokenize (hts : (Token.tokenize source text).result = .ok ts)
    (name : String) (origin : UInt32) :
    (assemble source text origin).result =
      relocate (Token.placeIn ts) (Assembly.moved (Token.placeIn ts))
        ((Program.read (Token.numbered (ts.map Token.toLexeme))).result.bind fun program =>
          (assembleProgram name origin program).result) := by
  have hread := Program.result_read_moved (f := Token.placeIn ts)
    (Token.numbered_ne_nil (Token.ne_nil_of_tokenize hts))
  rw [Token.map_moved_numbered] at hread
  unfold assemble
  rw [Outcome.result_bind, hts]
  simp only [Except.bind, Outcome.result_bind]
  exact relocate_bind hread fun program => result_assembleProgram_moved name source origin program

/-- **Only what the tokens say counts.** Let two texts be split into tokens that say the same; they
may have other names, blanks, line breaks and comments. Then both are assembled, to the same
addresses, bytes and symbols and to the same statements up to positions; or both are at fault at
the same stage and with the same message, each where its token of one and the same number
stands. -/
theorem assemble_of_same_lexemes (hts : (Token.tokenize source text).result = .ok ts)
    (hts' : (Token.tokenize source' text').result = .ok ts')
    (hsame : ts.map Token.toLexeme = ts'.map Token.toLexeme) (origin : UInt32) :
    (∃ a b, (assemble source text origin).result = .ok a ∧
        (assemble source' text' origin).result = .ok b ∧
        a.lines.map Line.address = b.lines.map Line.address ∧
        a.lines.map Line.bytes = b.lines.map Line.bytes ∧ a.symbols = b.symbols ∧
        (a.lines.map fun l => l.statement.unlocated) =
          b.lines.map fun l => l.statement.unlocated) ∨
    ∃ e e' : Fault, (assemble source text origin).result = .error e ∧
        (assemble source' text' origin).result = .error e' ∧
        e.stage = e'.stage ∧ e.message = e'.message ∧
        ∃ (i : Nat) (t t' : Token), ts[i]? = some t ∧ ts'[i]? = some t' ∧
          e.position = t.position ∧ e'.position = t'.position := by
  have hresult := result_assemble_of_tokenize hts "" origin
  have hresult' := result_assemble_of_tokenize hts' "" origin
  rw [hsame] at hresult
  generalize ((Program.read (Token.numbered (ts'.map Token.toLexeme))).result.bind fun program =>
    (assembleProgram "" origin program).result) = common at hresult hresult'
  cases common with
  | ok c =>
    obtain ⟨haddress, hbytes, hsymbols, hstatement⟩ := c.columns_moved (Token.placeIn ts)
    obtain ⟨haddress', hbytes', hsymbols', hstatement'⟩ := c.columns_moved (Token.placeIn ts')
    exact .inl ⟨_, _, hresult, hresult', haddress.trans haddress'.symm,
      hbytes.trans hbytes'.symm, hsymbols.trans hsymbols'.symm, hstatement.trans hstatement'.symm⟩
  | error d =>
    have hlength : ts.length = ts'.length := by
      have := congrArg List.length hsame
      simpa using this
    obtain ⟨t, ht, hplace⟩ := Token.placeIn_eq (Token.ne_nil_of_tokenize hts) d.position
    obtain ⟨t', ht', hplace'⟩ := Token.placeIn_eq (Token.ne_nil_of_tokenize hts') d.position
    rw [hlength] at ht
    exact .inr ⟨_, _, hresult, hresult', rfl, rfl, _, t, t', ht, ht', hplace, hplace'⟩

/-- A jump in one line, and in two with a comment: to a number it is assembled to the same bytes,
and to a name without a label it is at fault with the same message. -/
theorem assemble_of_same_lexemes_two_lines :
    (∃ a b, (assemble "one" "jp &7" 0).result = .ok a ∧
        (assemble "two" "jp ; far\n&7" 0).result = .ok b ∧
        a.lines.map Line.bytes = b.lines.map Line.bytes) ∧
      ∃ e e' : Fault, (assemble "one" "jp &x" 0).result = .error e ∧
        (assemble "two" "jp ; far\n&x" 0).result = .error e' ∧ e.message = e'.message := by
  have hone : ∀ l : Lexeme, l ∈ [⟨.number 7, "7"⟩, ⟨.identifier, "x"⟩] →
      (Token.tokenize "one" ("jp &" ++ l.text)).result =
        .ok [⟨⟨.mnemonic, "jp"⟩, ⟨"one", 0, 1, 1⟩⟩, ⟨⟨.symbol, "&"⟩, ⟨"one", 3, 1, 4⟩⟩,
          ⟨l, ⟨"one", 4, 1, 5⟩⟩, ⟨.endOfInput, ⟨"one", 5, 1, 6⟩⟩] := by decide +kernel
  have htwo : ∀ l : Lexeme, l ∈ [⟨.number 7, "7"⟩, ⟨.identifier, "x"⟩] →
      (Token.tokenize "two" ("jp ; far\n&" ++ l.text)).result =
        .ok [⟨⟨.mnemonic, "jp"⟩, ⟨"two", 0, 1, 1⟩⟩, ⟨⟨.symbol, "&"⟩, ⟨"two", 9, 2, 1⟩⟩,
          ⟨l, ⟨"two", 10, 2, 2⟩⟩, ⟨.endOfInput, ⟨"two", 11, 2, 3⟩⟩] := by decide +kernel
  constructor
  · rcases assemble_of_same_lexemes (hone ⟨.number 7, "7"⟩ (by decide))
      (htwo ⟨.number 7, "7"⟩ (by decide)) rfl 0 with ⟨a, b, ha, hb, -, hbytes, -⟩ | ⟨e, -, he, -⟩
    · exact ⟨a, b, ha, hb, hbytes⟩
    · have hok : (assemble "one" "jp &7" 0).result.isOk = true := by decide +kernel
      exact absurd (he ▸ hok) (by simp [Except.isOk, Except.toBool])
  · rcases assemble_of_same_lexemes (hone ⟨.identifier, "x"⟩ (by decide))
      (htwo ⟨.identifier, "x"⟩ (by decide)) rfl 0 with ⟨a, -, ha, -⟩ | ⟨e, e', he, he', -, hm, -⟩
    · have herror : (assemble "one" "jp &x" 0).result.isOk = false := by decide +kernel
      exact absurd (ha ▸ herror) (by simp [Except.isOk, Except.toBool])
    · exact ⟨e, e', he, he', hm⟩

end Chip8
