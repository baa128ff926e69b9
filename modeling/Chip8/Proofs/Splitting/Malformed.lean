/-
# The first malformed token

Where a text is not split, it is split up to a place, and what stands in front there
begins no token (`Malformed`): a character of no class, a number that runs into a
letter, a `#` without digits, or a number that is too large. Each is described
without the way tokens are cut off. The tokens before it are those of the whole text
(`Reaches`), and they do not depend on what is behind the place: cut off there, the
text is split into just these (`Reaches.result_tokenize_cut`).

Key definitions: `Malformed`, `Reaches`, `Stops`.
Key theorems: `readLexeme_eq_error_iff`, `scan_of_reaches`, `scan_eq_error_iff_stops`,
`Reaches.cut`, `tokenize_error_iff_first_malformed`.
-/
import Chip8.Proofs.Splitting.Lossless

namespace Chip8

/-- What stands in front of a text begins a token that is malformed, and why. -/
inductive Malformed : List Char → Fault.Cause → Prop where
  /-- A character of no class. -/
  | stray {c : Char} {rest : List Char} (blank : isBlank c = false)
      (letter : isAlphabetic c = false) (digit : c.isDigit = false) (hash : c ≠ '#')
      (semicolon : c ≠ ';') (symbol : c ∉ Token.symbols) :
      Malformed (c :: rest) (.strayCharacter c)
  /-- All digits there are, of which there may be none behind a `#`, and a letter. -/
  | runsOn (radix : Radix) {ds rest : List Char} {c : Char}
      (digits : ∀ d ∈ ds, radix.isDigit d = true) (begins : radix = .decimal → ds ≠ [])
      (ends : radix.isDigit c = false) (letter : isAlphabetic c = true) :
      Malformed (radix.mark ++ (ds ++ c :: rest)) (.malformedNumber radix c)
  /-- A `#` and no digit. -/
  | bare {rest : List Char} (ends : Radix.hexadecimal.EndsBefore rest) :
      Malformed ('#' :: rest) .noHexDigits
  /-- All digits there are, and they make too large a number. -/
  | large (radix : Radix) {ds rest : List Char} (digits : ∀ d ∈ ds, radix.isDigit d = true)
      (some_digit : ds ≠ []) (ends : radix.EndsBefore rest)
      (value : UInt32.size ≤ radix.value ds) :
      Malformed (radix.mark ++ (ds ++ rest)) (.outOfRange (String.ofList (radix.mark ++ ds)))

/-! ### What cannot be cut off is malformed -/

namespace Token

theorem word?_eq_none_iff {k : Nat} : word? k = none ↔ UInt32.size ≤ k := by
  unfold word?
  split <;> simp_all

variable {cause : Fault.Cause}

theorem malformed_of_readNumber (radix : Radix) {cs : List Char}
    (hbegins : radix = .decimal → cs.takeWhile radix.isDigit ≠ [])
    (h : readNumber radix radix.mark cs = .error cause) : Malformed (radix.mark ++ cs) cause := by
  have hdigits : ∀ d ∈ cs.takeWhile radix.isDigit, radix.isDigit d = true :=
    fun d hd => List.mem_takeWhile_imp hd
  have hends : ∀ c ∈ (cs.dropWhile radix.isDigit).head?, radix.isDigit c = false :=
    eq_false_of_head?_dropWhile
  unfold readNumber at h
  rw [← List.takeWhile_append_dropWhile (p := radix.isDigit) (l := cs)]
  -- The run of digits and what is behind it are all that matters from here on.
  generalize cs.takeWhile radix.isDigit = ds at *
  generalize cs.dropWhile radix.isDigit = rest at *
  simp only at h
  split at h
  · next c hc =>
    cases h
    obtain ⟨hhead, hletter⟩ := Option.filter_eq_some_iff.mp hc
    obtain ⟨tail, rfl⟩ := List.head?_eq_some_iff.mp hhead
    exact .runsOn radix hdigits hbegins (hends c hhead) hletter
  · next hnone =>
    have hcut : radix.EndsBefore rest := fun c hc =>
      ⟨by simpa using Option.filter_eq_none_iff.mp hnone c hc, hends c hc⟩
    split at h
    · next hempty =>
      cases h
      subst hempty
      cases radix with
      | decimal => exact absurd rfl (hbegins rfl)
      | hexadecimal => exact .bare hcut
    · next hne =>
      split at h
      · cases h
      · next hlarge =>
        cases h
        exact .large radix hdigits hne hcut (word?_eq_none_iff.mp hlarge)

/-- What cannot be cut off the front of a text is malformed. -/
theorem malformed_of_readLexeme {c : Char} {cs : List Char} (hb : isBlank c = false)
    (h : readLexeme c cs = .error cause) : Malformed (c :: cs) cause := by
  unfold readLexeme at h
  split at h
  · cases h
  · next hletter =>
    split at h
    · next hdigit =>
      have hd : Radix.decimal.isDigit c = true := hdigit
      exact malformed_of_readNumber .decimal (fun _ => by simp [hd]) h
    · next hdigit =>
      split at h
      · next hhash =>
        subst hhash
        exact malformed_of_readNumber .hexadecimal (by simp) h
      · next hhash =>
        split at h
        · cases h
        · next hsemicolon =>
          split at h
          · cases h
          · next hsymbol =>
            cases h
            exact .stray hb (by simpa using hletter) (by simpa using hdigit) hhash hsemicolon
              hsymbol

end Token

/-! ### What is malformed cannot be cut off -/

/-- A number is read by its mark and what is behind it. -/
theorem Token.readLexeme_number {radix : Radix} {ds rest cs : List Char} {c : Char}
    (hds : ∀ d ∈ ds, radix.isDigit d = true) (hbegins : radix = .decimal → ds ≠ [])
    (hcs : radix.mark ++ (ds ++ rest) = c :: cs) :
    isBlank c = false ∧ readLexeme c cs = readNumber radix radix.mark (ds ++ rest) := by
  cases radix with
  | decimal =>
    obtain ⟨d, ds, rfl⟩ := List.exists_cons_of_ne_nil (hbegins rfl)
    obtain ⟨rfl, rfl⟩ := List.cons.inj hcs
    have hd : d.isDigit = true := hds d List.mem_cons_self
    obtain ⟨hblank, hletter⟩ := isBlank_and_isAlphabetic_of_isDigit hd
    exact ⟨hblank, by simp [readLexeme, hletter, hd, Radix.mark]⟩
  | hexadecimal =>
    obtain ⟨rfl, rfl⟩ := List.cons.inj hcs
    have hhash : isAlphabetic '#' = false ∧ Char.isDigit '#' = false := by decide
    exact ⟨by decide, by simp [readLexeme, hhash.1, hhash.2, Radix.mark]⟩

variable {cause : Fault.Cause}

/-- Where no letter follows, a number does not run on. -/
theorem Radix.EndsBefore.filter_eq_none {radix : Radix} {rest : List Char}
    (h : radix.EndsBefore rest) : rest.head?.filter isAlphabetic = none :=
  Option.filter_eq_none_iff.mpr fun c hc => by simp [(h c hc).1]

theorem Malformed.readLexeme {c : Char} {cs : List Char} (h : Malformed (c :: cs) cause) :
    isBlank c = false ∧ Token.readLexeme c cs = .error cause := by
  generalize htext : c :: cs = text at h
  cases h with
  | stray blank letter digit hash semicolon symbol =>
    obtain ⟨rfl, rfl⟩ := List.cons.inj htext
    exact ⟨blank, by simp [Token.readLexeme, letter, digit, hash, semicolon, symbol]⟩
  | @runsOn radix ds rest d digits begins ends letter =>
    obtain ⟨hblank, hread⟩ := Token.readLexeme_number digits begins htext.symm
    obtain ⟨-, hdrop⟩ := @run_append radix.isDigit ds (d :: rest) digits (by simpa using ends)
    exact ⟨hblank, by simp [hread, Token.readNumber, hdrop, Option.filter, letter]⟩
  | @bare rest ends =>
    obtain ⟨hblank, hread⟩ :=
      @Token.readLexeme_number .hexadecimal [] rest cs c (by simp) (by simp) htext.symm
    obtain ⟨htake, hdrop⟩ :=
      @run_append Radix.hexadecimal.isDigit [] rest (by simp) fun d hd => (ends d hd).2
    rw [List.nil_append] at hread htake hdrop
    exact ⟨hblank, by simp [hread, Token.readNumber, htake, hdrop, ends.filter_eq_none]⟩
  | @large radix ds rest digits some_digit ends value =>
    obtain ⟨hblank, hread⟩ := Token.readLexeme_number digits (fun _ => some_digit) htext.symm
    obtain ⟨htake, hdrop⟩ := run_append digits fun d hd => (ends d hd).2
    have hword := Token.word?_eq_none_iff.mpr value
    exact ⟨hblank, by
      simp [hread, Token.readNumber, htake, hdrop, ends.filter_eq_none, some_digit, hword]⟩

theorem Malformed.exists_cons {cs : List Char} (h : Malformed cs cause) :
    ∃ c ds, cs = c :: ds := by
  cases h with
  | @stray c rest => exact ⟨c, rest, rfl⟩
  | runsOn radix digits begins ends letter =>
    exact List.exists_cons_of_ne_nil (by simp)
  | @bare rest => exact ⟨'#', rest, rfl⟩
  | large radix digits some_digit ends value =>
    exact List.exists_cons_of_ne_nil (by simp [some_digit])

/-- What is malformed is a lexical fault. -/
theorem Malformed.stage {cs : List Char} (h : Malformed cs cause) : cause.stage = .lexical := by
  cases h <;> rfl

/-- **What is malformed is what cannot be cut off.** -/
theorem Token.readLexeme_eq_error_iff {c : Char} {cs : List Char} (hb : isBlank c = false) :
    readLexeme c cs = .error cause ↔ Malformed (c :: cs) cause :=
  ⟨malformed_of_readLexeme hb, fun h => h.readLexeme.2⟩

/-! ### Up to a place -/

/-- Behind the text `front` of `source` the tokens of `ss` stand one behind another, then only
white space and comments are skipped, and at `p` the text `rest` is in front. -/
structure Reaches (source : String) (front : List Char) (ss : List Stretch) (gap : List Char)
    (p : Position) (rest : List Char) : Prop where
  stand : Stretch.AllStand source front ss (gap ++ rest)
  skipped : Skipped gap rest
  position : p.Counts source (front ++ (ss.flatMap Stretch.chars ++ gap))

variable {source : String} {front gap rest : List Char} {p : Position} {s : Stretch}
  {ss : List Stretch}

theorem reaches_cons_iff :
    Reaches source front (s :: ss) gap p rest ↔
      s.Stands source front (ss.flatMap Stretch.chars ++ (gap ++ rest)) ∧
        Reaches source (front ++ s.chars) ss gap p rest := by
  have hfront : front ++ ((s :: ss).flatMap Stretch.chars ++ gap) =
      front ++ s.chars ++ (ss.flatMap Stretch.chars ++ gap) := by simp
  constructor
  · rintro ⟨hstand, hgap, hp⟩
    obtain ⟨hs, hss⟩ := Stretch.allStand_cons_iff.mp hstand
    exact ⟨hs, hss, hgap, hfront ▸ hp⟩
  · rintro ⟨hs, hss, hgap, hp⟩
    exact ⟨Stretch.allStand_cons_iff.mpr ⟨hs, hss⟩, hgap, hfront ▸ hp⟩

/-- The text `cs` behind `front` is reached up to the place of the fault, and what stands there is
malformed as the fault says. -/
def Stops (source : String) (front cs : List Char) (f : Fault) : Prop :=
  ∃ ss gap rest, cs = ss.flatMap Stretch.chars ++ (gap ++ rest) ∧
    Reaches source front ss gap f.position rest ∧ Malformed rest f.cause

variable {cs : List Char} {f : Fault}

/-- In front of a text that is reached up to a fault, more may be skipped. -/
theorem Stops.skip {note : List Char} (h : Stops source (front ++ note) cs f)
    (hnote : ∀ {ds rest}, ds ++ rest = cs → Skipped ds rest → Skipped (note ++ ds) rest) :
    Stops source front (note ++ cs) f := by
  obtain ⟨ss, gap, rest, hcs, hreach, hbad⟩ := h
  cases ss with
  | nil =>
    -- No token stands before the place, so the note is skipped in front of it.
    obtain ⟨-, hgap, hp⟩ := hreach
    refine ⟨[], note ++ gap, rest, by simp [hcs], ⟨Stretch.allStand_nil, ?_, ?_⟩, hbad⟩
    · exact hnote hcs.symm hgap
    · simpa using hp
  | cons s ss =>
    obtain ⟨hs, hss⟩ := reaches_cons_iff.mp hreach
    have hchars : note ++ s.chars = Stretch.chars ⟨note ++ s.skipped, s.token⟩ := by
      simp [Stretch.chars]
    refine ⟨⟨note ++ s.skipped, s.token⟩ :: ss, gap, rest, ?_, reaches_cons_iff.mpr ⟨?_, ?_⟩, hbad⟩
    · rw [hcs, List.flatMap_cons, List.flatMap_cons, ← hchars]
      simp only [List.append_assoc]
    · refine ⟨hnote ?_ hs.skipped, ?_, hs.longest⟩
      · rw [hcs, List.flatMap_cons, Stretch.chars]
        simp only [List.append_assoc]
      · rw [← List.append_assoc]
        exact hs.position
    · rwa [← hchars, ← List.append_assoc]

/-- In front of a text that is reached up to a fault, a token may stand. -/
theorem Stops.token {kind : Token.Kind} {word : List Char} (hp : p.Counts source front)
    (hlongest : Lexeme.Longest ⟨kind, String.ofList word⟩ cs)
    (h : Stops source (front ++ word) cs f) : Stops source front (word ++ cs) f := by
  obtain ⟨ss, gap, rest, hcs, hreach, hbad⟩ := h
  have hchars : Stretch.chars ⟨[], ⟨⟨kind, String.ofList word⟩, p⟩⟩ = word := by
    simp [Stretch.chars]
  refine ⟨⟨[], ⟨⟨kind, String.ofList word⟩, p⟩⟩ :: ss, gap, rest, ?_,
    reaches_cons_iff.mpr ⟨⟨.nil, by simpa using hp, hcs ▸ hlongest⟩, by rwa [hchars]⟩, hbad⟩
  rw [List.flatMap_cons, hchars, List.append_assoc, hcs]

namespace Token

/-- A fault stands at the first place where what is in front is malformed. -/
theorem stops_of_scan (h : scan p cs = .error f) (hp : p.Counts source front) :
    Stops source front cs f := by
  fun_induction scan p cs generalizing front with
  | case1 => cases h
  | case2 p c cs hb ih => exact Stops.skip (ih h (hp.step c)) fun _ hmore => .blank hb hmore
  | case3 p c cs hb cause hcut =>
    cases h
    have hbad := (readLexeme_eq_error_iff (by simpa using hb)).mp hcut
    exact ⟨[], [], c :: cs, rfl, ⟨Stretch.allStand_nil, .nil, by simpa using hp⟩, hbad⟩
  | case4 p c cs hb piece hcut g hg ih =>
    cases h
    have hmore := ih hg (hp.advance piece.text)
    rw [← readLexeme_append hcut]
    rcases longest_or_isComment_of_readLexeme hcut with ⟨-, hcomment⟩ | hlongest
    · refine Stops.skip hmore fun hrest hskipped => .comment ?_ hskipped
      rwa [hrest]
    · exact Stops.token hp hlongest hmore
  | case5 => cases h
  | case6 => cases h

/-- The tokens that reach a place are found, and splitting goes on there. -/
theorem scan_of_reaches (h : Reaches source front ss gap p rest) {q : Position}
    (hq : q.Counts source front) :
    scan q (ss.flatMap Stretch.chars ++ (gap ++ rest)) =
      (scan p rest).map (ss.map Stretch.token ++ ·) := by
  induction ss generalizing front q with
  | nil =>
    obtain ⟨-, hgap, hp⟩ := h
    rw [List.flatMap_nil, List.nil_append, scan_skipped hgap, (hq.advance gap).unique hp]
    cases scan p rest <;> rfl
  | cons s ss ih =>
    obtain ⟨hs, hss⟩ := reaches_cons_iff.mp h
    obtain ⟨c, cs, htext⟩ := hs.longest.exists_cons
    obtain ⟨hb, hread⟩ := hs.longest.readLexeme htext
    have hlist : s.token.text.toList = c :: cs := by rw [htext, String.toList_ofList]
    have hrest := ih hss (hq.advance s.chars)
    rw [Stretch.chars, hlist, Position.advance_append] at hrest
    rw [List.flatMap_cons, Stretch.chars, List.append_assoc, List.append_assoc,
      scan_skipped hs.skipped, hlist, List.cons_append, scan_ok hb hread, hrest,
      (hq.advance s.skipped).unique hs.position]
    cases scan p rest with
    | error f => rfl
    | ok ts => simp [Except.map, hs.longest.kind_ne.1, ← htext]

/-- Splitting fails exactly at the first malformed token. -/
theorem scan_eq_error_iff_stops (hp : p.Counts source front) :
    scan p cs = .error f ↔ Stops source front cs f := by
  refine ⟨fun h => stops_of_scan h hp, ?_⟩
  rintro ⟨ss, gap, rest, rfl, hreach, hbad⟩
  obtain ⟨c, ds, rfl⟩ := hbad.exists_cons
  obtain ⟨hb, hread⟩ := hbad.readLexeme
  rw [scan_of_reaches hreach hp, scan_error hb hread f.position]
  rfl

theorem result_tokenize_eq_error_iff {text : String} :
    (tokenize source text).result = .error f ↔ Stops source [] text.toList f := by
  rw [result_tokenize]
  exact scan_eq_error_iff_stops (Position.counts_start source)

end Token

/-! ### Cutting the text off -/

theorem Skipped.cut {ds : List Char} (h : Skipped cs (ds ++ rest)) : Skipped cs ds := by
  generalize htext : ds ++ rest = text at h
  induction h with
  | nil => exact .nil
  | blank hb more ih => exact .blank hb (ih htext)
  | @comment note cs' _ hnote more ih =>
    subst htext
    obtain ⟨line, rfl, hline, hends⟩ := hnote
    refine .comment ⟨line, rfl, hline, fun c hc => hends c ?_⟩ (ih rfl)
    rw [← List.append_assoc, List.head?_append, hc]
    rfl

/-- A lexeme is as long as it can be also where less is behind it. -/
theorem Lexeme.Longest.cut {l : Lexeme} {ds : List Char} (h : l.Longest (ds ++ rest)) :
    l.Longest ds := by
  have hhead : ∀ c ∈ ds.head?, c ∈ (ds ++ rest).head? := fun c hc => by
    rw [List.head?_append, hc]
    rfl
  exact h.imp (fun hcut c hc => hcut c (hhead c hc)) fun _ hends c hc => hends c (hhead c hc)

/-- Where the text is cut off behind some skipped text, the tokens before stand as they stood. -/
theorem Reaches.cut (h : Reaches source front ss gap p rest) :
    Reaches source front ss gap p [] := by
  induction ss generalizing front with
  | nil => exact ⟨Stretch.allStand_nil, Skipped.cut (by simpa using h.skipped), h.position⟩
  | cons s ss ih =>
    obtain ⟨hs, hss⟩ := reaches_cons_iff.mp h
    rw [← List.append_assoc] at hs
    refine reaches_cons_iff.mpr ⟨⟨?_, hs.position, ?_⟩, ih hss⟩
    · rw [List.append_nil]
      exact Skipped.cut (by simpa using hs.skipped)
    · rw [List.append_nil]
      exact hs.longest.cut

/-- Cut off at a place that is reached, the text is split into the tokens before that place. -/
theorem Reaches.result_tokenize_cut (h : Reaches source [] ss gap p rest) :
    (Token.tokenize source (String.ofList (ss.flatMap Stretch.chars ++ gap))).result =
      .ok (ss.map Stretch.token ++ [⟨.endOfInput, p⟩]) := by
  have hscan := Token.scan_of_reaches h.cut (Position.counts_start source)
  rw [List.append_nil] at hscan
  rw [Token.result_tokenize, String.toList_ofList, hscan, Token.scan_nil]
  rfl

/-- **Splitting a text into tokens fails exactly at the first malformed token.** It fails iff
tokens, white space and comments reach a place where what stands in front is malformed, and then it
fails there, with the cause that this has. The fault is lexical, and the text cut off at its place
is split into just the tokens before, and the end of the input. -/
theorem tokenize_error_iff_first_malformed (source text : String) (f : Fault) :
    ((Token.tokenize source text).result = .error f ↔
      ∃ ss gap rest, text.toList = ss.flatMap Stretch.chars ++ (gap ++ rest) ∧
        Reaches source [] ss gap f.position rest ∧ Malformed rest f.cause) ∧
    ∀ ss gap rest, text.toList = ss.flatMap Stretch.chars ++ (gap ++ rest) →
      Reaches source [] ss gap f.position rest → Malformed rest f.cause →
        f.stage = .lexical ∧
        (Token.tokenize source (String.ofList (ss.flatMap Stretch.chars ++ gap))).result =
          .ok (ss.map Stretch.token ++ [⟨.endOfInput, f.position⟩]) := by
  refine ⟨Token.result_tokenize_eq_error_iff, fun ss gap rest _ hreach hbad => ?_⟩
  exact ⟨hbad.stage, hreach.result_tokenize_cut⟩

end Chip8
