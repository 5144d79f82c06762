import Shading.Proofs.Token.Steps

/-!
# Where tokens stand

Blanks and tokens lie side by side in a source and leave nothing out.  Each token knows the characters
it was read from, where they stand, and on which line and in which column they begin.

* `Position.behind` — the position behind a text, counted from its line feeds;
* `Tiled` — blanks and tokens, one behind another;
* `tiled_of_tokenize` — the source of its tokens is tiled by them;
* `tokenize_lossless` — nothing but blanks is lost, and every place is right.
-/

namespace Shading

open Text (isBlank)

/-! ### Positions -/

/-- The position behind a text: its lines are counted by their line feeds, and the columns from the
last line feed on. -/
def Position.behind (before : List Char) : Position :=
  ⟨1 + before.count '\n', 1 + (before.reverse.takeWhile (· != '\n')).length⟩

namespace Position

variable {before line : List Char}

lemma behind_append_of_oneLine (h : '\n' ∉ line) :
    behind (before ++ line) = ⟨(behind before).line, (behind before).column + line.length⟩ := by
  have hreverse : ∀ c ∈ line.reverse, (c != '\n') = true := by
    intro c hc
    simpa using ne_of_mem_of_not_mem (List.mem_reverse.1 hc) h
  simp only [behind, List.count_append, List.count_eq_zero_of_not_mem h, List.reverse_append,
    List.takeWhile_append_of_pos hreverse, List.length_append, List.length_reverse]
  congr 1
  omega

lemma behind_append_newline : behind (before ++ ['\n']) = ⟨(behind before).line + 1, 1⟩ := by
  simp [behind]
  omega

end Position

/-! ### Tiles -/

/-- Behind the text `before`, blanks and tokens stand one behind another, and every token has its
place. -/
inductive Tiled : List Char → List Char → List Token → Prop
  | nil {before : List Char} : Tiled before [] []
  | blank {before text : List Char} {c : Char} {ts : List Token} (hc : isBlank c = true)
    (h : Tiled (before ++ [c]) text ts) : Tiled before (c :: text) ts
  | token {before lexeme text : List Char} {t : Token} {ts : List Token}
    (hlexeme : t.lexeme.toList = lexeme) (hne : lexeme ≠ [])
    (hspan : t.span = ⟨before.length, before.length + lexeme.length, .behind before⟩)
    (h : Tiled (before ++ lexeme) text ts) : Tiled before (lexeme ++ text) (t :: ts)

namespace Tiled

variable {before text text' : List Char} {ts ts' : List Token}

lemma append (h : Tiled before text ts) (h' : Tiled (before ++ text) text' ts') :
    Tiled before (text ++ text') (ts ++ ts') := by
  induction h with
  | nil => simpa using h'
  | blank hc _ ih => exact .blank hc (ih (by simpa using h'))
  | token hlexeme hne hspan _ ih =>
    rw [List.append_assoc]
    exact .token hlexeme hne hspan (ih (by simpa using h'))

lemma of_forall_blank (h : ∀ c ∈ text, isBlank c = true) : Tiled before text [] := by
  induction text generalizing before with
  | nil => exact .nil
  | cons c text ih =>
    obtain ⟨hc, htext⟩ := List.forall_mem_cons.1 h
    exact .blank hc (ih htext)

end Tiled

/-- A line is tiled by its tokens. -/
lemma Scan.Yields.tiled {line offset column : Nat} {cs before : List Char} {ts : List Token}
    (h : Scan.Yields line offset column cs ts) (hline : '\n' ∉ cs)
    (hlength : before.length = offset + column)
    (hbehind : Position.behind before = ⟨line, column + 1⟩) : Tiled before cs ts := by
  induction h generalizing before with
  | done => exact .nil
  | @blank column c cs ts hc _ ih =>
    rw [← List.singleton_append, List.mem_append, not_or] at hline
    refine .blank hc (ih hline.2 ?_ ?_)
    · simp [hlength, Nat.add_assoc]
    · rw [Position.behind_append_of_oneLine hline.1, hbehind]
      rfl
  | @token column c cs rest kind ts hc _ _ ih =>
    rw [← List.cons_append, List.mem_append, not_or] at hline
    rw [← List.cons_append]
    refine .token String.toList_ofList (by simp) (by simp [hlength, hbehind]) (ih hline.2 ?_ ?_)
    · simp [hlength, Nat.add_assoc]
    · rw [Position.behind_append_of_oneLine hline.1, hbehind, List.length_cons, Nat.add_right_comm]

/-- What stands behind the content of a line is blank. -/
lemma Text.exists_content_append (line : List Char) :
    ∃ terminator, line = content line ++ terminator ∧ ∀ c ∈ terminator, isBlank c = true := by
  have hlast : ∀ {rest : List Char}, line.reverse = rest → line = rest.reverse :=
    fun hrev => by rw [← hrev, List.reverse_reverse]
  unfold content
  split
  · next rest hrev =>
    refine ⟨['\r', '\n'], by simp [hlast hrev], List.forall_mem_cons.2 ⟨rfl, ?_⟩⟩
    exact List.forall_mem_singleton.2 rfl
  · next rest _ hrev => exact ⟨['\n'], by simp [hlast hrev], List.forall_mem_singleton.2 rfl⟩
  · exact ⟨[], by simp, by simp⟩

namespace Scanner

variable {s : Scanner} {before : List Char} {ts : List Token}

/-- A line, with its terminator, is tiled by the tokens of its content. -/
lemma tiled_line {line : List Char} (hline : '\n' ∉ line.dropLast) (hoffset : before.length = s.offset)
    (hbehind : Position.behind before = ⟨s.lines + 1, 1⟩)
    (h : Scan.Yields (s.lines + 1) s.offset 0 (Text.content line) ts) : Tiled before line ts := by
  obtain ⟨terminator, hterminator, hblank⟩ := Text.exists_content_append line
  have htiled := h.tiled (Text.not_mem_content hline) hoffset hbehind
  have hwhole := htiled.append (.of_forall_blank hblank)
  rwa [← hterminator, List.append_nil] at hwhole

/-- A text is tiled by the tokens of its lines. -/
lemma tiled_all {text : List Char} (hoffset : before.length = s.offset)
    (hbehind : Position.behind before = ⟨s.lines + 1, 1⟩) (h : s.all (Text.lines text) = .ok ts) :
    Tiled before text ts := by
  induction text using Text.line_induction generalizing s before ts with
  | nil =>
    cases h
    exact .nil
  | last line hline hne =>
    rw [Text.lines_of_oneLine hline hne, all_cons_eq_ok] at h
    obtain ⟨first, later, hyields, hlater, rfl⟩ := h
    cases hlater
    rw [List.append_nil]
    exact tiled_line (fun hmem => hline (List.dropLast_subset _ hmem)) hoffset hbehind hyields
  | cons line rest hline ih =>
    rw [Text.lines_append_cons hline, all_cons_eq_ok] at h
    obtain ⟨first, later, hyields, hlater, rfl⟩ := h
    rw [List.append_cons]
    refine (tiled_line (by simpa using hline) hoffset hbehind hyields).append (ih ?_ ?_ hlater)
    · simp [hoffset]
    · rw [← List.append_assoc, Position.behind_append_newline, Position.behind_append_of_oneLine hline,
        hbehind]

end Scanner

/-- **The source of its tokens is tiled by them.** -/
theorem tiled_of_tokenize {source : String} {ts : List Token} (h : tokenize source = .ok ts) :
    Tiled [] source.toList ts :=
  Scanner.tiled_all rfl rfl h

/-! ### Places in the whole source -/

/-- The token was read from the characters of its span, and begins where it says. -/
structure Token.Placed (source : List Char) (t : Token) : Prop where
  first_lt_stop : t.span.first < t.span.stop
  stop_le : t.span.stop ≤ source.length
  lexeme : t.lexeme.toList = (source.take t.span.stop).drop t.span.first
  line : t.position.line = 1 + (source.take t.span.first).count '\n'
  column : t.position.column = 1 + ((source.take t.span.first).reverse.takeWhile (· != '\n')).length

namespace Tiled

variable {before text : List Char} {ts : List Token}

lemma placed (h : Tiled before text ts) : ∀ t ∈ ts, t.Placed (before ++ text) := by
  induction h with
  | nil => simp
  | blank _ _ ih => simpa using ih
  | @token before lexeme text t ts hlexeme hne hspan _ ih =>
    refine List.forall_mem_cons.2 ⟨?_, by simpa using ih⟩
    have hlength : 0 < lexeme.length := List.length_pos_iff.2 hne
    have htake : (before ++ (lexeme ++ text)).take (before.length + lexeme.length) = before ++ lexeme := by
      rw [← List.append_assoc, ← List.length_append, List.take_left]
    constructor <;> simp [Token.position, hspan, Position.behind, hlength, hlexeme, htake]

/-- No token begins before the text. -/
lemma length_le_first (h : Tiled before text ts) : ∀ t ∈ ts, before.length ≤ t.span.first := by
  induction h with
  | nil => simp
  | blank _ _ ih => exact fun t ht => le_trans (by simp) (ih t ht)
  | token _ _ hspan _ ih =>
    refine List.forall_mem_cons.2 ⟨by simp [hspan], fun t ht => le_trans (by simp) (ih t ht)⟩

lemma pairwise (h : Tiled before text ts) : ts.Pairwise fun t u => t.span.stop ≤ u.span.first := by
  induction h with
  | nil => exact .nil
  | blank _ _ ih => exact ih
  | token _ _ hspan h ih =>
    refine List.pairwise_cons.2 ⟨fun u hu => ?_, ih⟩
    have := h.length_le_first u hu
    rw [List.length_append] at this
    rwa [hspan]

/-- What stands between the tokens is blank. -/
lemma blank_of_outside (h : Tiled before text ts) {i : Nat} {c : Char} (hi : before.length ≤ i)
    (hc : (before ++ text)[i]? = some c)
    (houtside : ∀ t ∈ ts, i < t.span.first ∨ t.span.stop ≤ i) : isBlank c = true := by
  induction h with
  | @nil before =>
    rw [List.append_nil, List.getElem?_eq_none hi] at hc
    cases hc
  | @blank before text d ts hd _ ih =>
    rcases Nat.eq_or_lt_of_le hi with rfl | hlt
    · rw [List.getElem?_append_right le_rfl, Nat.sub_self] at hc
      obtain rfl : d = c := Option.some.inj hc
      exact hd
    · exact ih (by rw [List.length_append]; exact hlt) (by simpa using hc) houtside
  | @token before lexeme text t ts _ hne hspan _ ih =>
    obtain ⟨ht, houtside⟩ := List.forall_mem_cons.1 houtside
    rw [hspan] at ht
    have hstop : before.length + lexeme.length ≤ i := ht.resolve_left (Nat.not_lt.2 hi)
    exact ih (by simpa using hstop) (by simpa using hc) houtside

end Tiled

/-- **Nothing but blanks is lost, and every place is right.**  Each token of a source consists of the
characters of its span, of which there is one at least; its line is counted by the line feeds before it,
and its column by the characters behind the last of them.  The spans stand one behind another and do not
overlap, and every character outside all of them is blank. -/
theorem tokenize_lossless {source : String} {ts : List Token} (h : tokenize source = .ok ts) :
    (∀ t ∈ ts, t.Placed source.toList) ∧ ts.Pairwise (fun t u => t.span.stop ≤ u.span.first) ∧
      ∀ i c, source.toList[i]? = some c → (∀ t ∈ ts, i < t.span.first ∨ t.span.stop ≤ i) →
        isBlank c = true := by
  have htiled := tiled_of_tokenize h
  refine ⟨htiled.placed, htiled.pairwise, fun i c hc houtside => ?_⟩
  exact htiled.blank_of_outside (Nat.zero_le i) hc houtside

/-- A string with a character of two bytes, a comment, and both line terminators. -/
theorem tokenize_lossless_terminated :
    let source := "\"é\" // b\r\n\n c"
    let ts : List Token := [⟨.string "é", ⟨0, 3, 1, 1⟩, "\"é\""⟩, ⟨.comment "b", ⟨4, 8, 1, 5⟩, "// b"⟩,
      ⟨.identifier "c", ⟨12, 13, 3, 2⟩, "c"⟩]
    tokenize source = .ok ts ∧ (∀ t ∈ ts, t.Placed source.toList) ∧
      ts.Pairwise (fun t u => t.span.stop ≤ u.span.first) ∧
      ∀ i c, source.toList[i]? = some c → (∀ t ∈ ts, i < t.span.first ∨ t.span.stop ≤ i) →
        isBlank c = true := by
  intro source ts
  have hts : tokenize source = .ok ts := by decide +kernel
  exact ⟨hts, tokenize_lossless hts⟩

end Shading
