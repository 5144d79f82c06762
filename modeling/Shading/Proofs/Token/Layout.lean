import Shading.Proofs.Token.Steps

/-!
# Layout

What a text is read as does not depend on where its lines stand, and hardly on how they end: a line feed
that is put behind a line may turn a carriage return into a part of the terminator, which only shortens
a comment by a blank.

* `Token.view` — what of a token can matter to a rule;
* `Scan.Yields.move` — a line is read alike wherever it stands;
* `Scan.Yields.concat_return` — a carriage return at the end of a line does not matter;
* `tokenize_joined` — a text, a line with a semicolon, and another text;
* `tokenize_onLines` — the tokens of a source, each on a line of its own.
-/

namespace Shading

open Text (isBlank isWordRest)

/-- What of a token can matter to a rule: its kind, and of a number whether it is written with a
point. -/
def Token.view (t : Token) : Token.Kind × Bool :=
  (t.kind, match t.kind with
    | .number _ => t.lexeme.toList.contains '.'
    | _ => false)

lemma Token.view_of_piece {t u : Token} (h : t.piece = u.piece) : t.view = u.view := by
  obtain ⟨hkind, hlexeme⟩ := Prod.mk.inj h
  unfold view
  rw [hkind, hlexeme]

lemma Token.views_of_pieces {ts us : List Token} (h : ts.map Token.piece = us.map Token.piece) :
    ts.map Token.view = us.map Token.view := by
  -- nothing of the span is in a view
  have hview : ∀ ts : List Token, ts.map view =
      (ts.map piece).map fun p => view ⟨p.1, ⟨0, 0, .start⟩, p.2⟩ := by
    intro ts
    rw [List.map_map]
    rfl
  rw [hview, hview, h]

/-! ### A carriage return at the end of a line -/

lemma Text.content_concat_newline (line : List Char) :
    content (line ++ ['\n']) = line ∨
      ∃ cs, line = cs ++ ['\r'] ∧ content (line ++ ['\n']) = cs := by
  rcases List.eq_nil_or_concat line with rfl | ⟨cs, d, rfl⟩
  · exact .inl rfl
  · by_cases hd : d = '\r'
    · subst hd
      exact .inr ⟨cs, by simp, by simp [content]⟩
    · exact .inl (by simp [content, hd])

namespace Scan

variable {c : Char} {cs : List Char} {kind : Token.Kind} {n : Nat}

lemma takeWhile_concat {p : Char → Bool} {d : Char} (hd : p d = false) (cs : List Char) :
    (cs ++ [d]).takeWhile p = cs.takeWhile p := by
  induction cs with
  | nil => simp [hd]
  | cons c cs ih => simp [List.takeWhile_cons, ih]

lemma dropWhile_concat {p : Char → Bool} {d : Char} (hd : p d = false) (cs : List Char) :
    (cs ++ [d]).dropWhile p = cs.dropWhile p ++ [d] := by
  induction cs with
  | nil => simp [hd]
  | cons c cs ih =>
    simp only [List.cons_append, List.dropWhile_cons, ih]
    split <;> rfl

lemma number_concat_return (cs : List Char) : number (cs ++ ['\r']) = number cs := by
  have hfraction : ∀ rest, fraction (rest ++ ['\r']) = fraction rest := by
    intro rest
    cases rest with
    | nil => rfl
    | cons d rest =>
      rw [List.cons_append]
      by_cases hd : d = '.'
      · subst hd
        exact takeWhile_concat (by rfl) rest
      · simp [fraction, hd]
  unfold number
  rw [takeWhile_concat (by rfl), dropWhile_concat (by rfl), hfraction]

lemma word_concat_return (c : Char) (cs : List Char) : word c (cs ++ ['\r']) = word c cs := by
  unfold word
  rw [takeWhile_concat (by decide +kernel)]

/-- A string that is closed is closed before the end of the line. -/
lemma string_of_concat_return (h : string (cs ++ ['\r']) = .ok (kind, n)) :
    string cs = .ok (kind, n) := by
  unfold string at h ⊢
  dsimp only at h ⊢
  rw [List.takeWhile_append] at h
  have hle := (List.takeWhile_prefix (l := cs) (· != '"')).length_le
  split at h
  · next hopen => simp at h
  · next hclosed =>
    rw [if_pos (by simp; omega)] at h
    rw [if_pos (by omega), h]

/-- **A carriage return at the end of a line goes on with a comment only**, and there it is a blank at
the end. -/
lemma front_of_concat_return (h : front c (cs ++ ['\r']) = .ok (kind, n)) :
    front c cs = .ok (kind, n) ∨ ∃ text, c = '/' ∧ cs = '/' :: text ∧
      kind = .comment (String.ofList (Text.trim (text ++ ['\r']))) ∧ n = text.length + 3 := by
  have hhead : ∀ {d}, d ≠ '\r' → (cs ++ ['\r']).head? ≠ some d → cs.head? ≠ some d := by
    intro d hd hne
    cases cs with
    | nil => simp
    | cons e cs => exact hne
  simp only [front_eq_ok_iff] at h ⊢
  generalize hchars : cs ++ ['\r'] = chars at h hhead
  cases h with
  | single h => exact .inl (.single h)
  | withEqual h =>
    rcases List.append_eq_cons_iff.1 hchars with ⟨-, heq⟩ | ⟨rest, rfl, -⟩
    · cases heq
    · exact .inl (.withEqual h)
  | alone h hcs => exact .inl (.alone h (hhead (by decide) hcs))
  | comment =>
    rcases List.append_eq_cons_iff.1 hchars with ⟨-, heq⟩ | ⟨text, rfl, rfl⟩
    · cases heq
    · exact .inr ⟨text, rfl, rfl, rfl, by simp⟩
  | slash hcs => exact .inl (.slash (hhead (by decide) hcs))
  | string h =>
    subst hchars
    exact .inl (.string (string_of_concat_return h))
  | number hc h =>
    subst hchars
    rw [← List.cons_append, number_concat_return] at h
    exact .inl (.number hc h)
  | word hc h =>
    subst hchars
    rw [word_concat_return] at h
    refine .inl (.word (hc.imp_right fun ⟨hc, hstart⟩ => ⟨hc, ?_⟩) h)
    cases cs with
    | nil => exact absurd hstart (by decide +kernel)
    | cons d cs => exact hstart

namespace Yields

variable {line offset column : Nat} {ts : List Token}

/-- **A line is read alike wherever it stands.** -/
theorem move (h : Yields line offset column cs ts) (line' offset' column' : Nat) :
    ∃ ts', Yields line' offset' column' cs ts' ∧ ts'.map Token.piece = ts.map Token.piece := by
  induction h generalizing column' with
  | done => exact ⟨[], .done, rfl⟩
  | blank hc _ ih =>
    obtain ⟨ts', hts', hpieces⟩ := ih (column' + 1)
    exact ⟨ts', .blank hc hts', hpieces⟩
  | token hc hfront _ ih =>
    obtain ⟨ts', hts', hpieces⟩ := ih _
    refine ⟨_, .token hc hfront hts', ?_⟩
    simp [Token.piece, hpieces]

/-- A token that fills its line. -/
lemma single (hc : isBlank c = false) (hfront : front c cs = .ok (kind, cs.length + 1)) :
    Yields line offset column (c :: cs) [⟨kind, ⟨offset + column, offset + column + (cs.length + 1),
      ⟨line, column + 1⟩⟩, String.ofList (c :: cs)⟩] := by
  have hfront : front c (cs ++ []) = .ok (kind, cs.length + 1) := by rwa [List.append_nil]
  have h : Yields line offset column (c :: (cs ++ [])) _ := .token hc hfront .done
  rwa [List.append_nil] at h

/-- **A carriage return at the end of a line does not matter.** -/
theorem concat_return (h : Yields line offset column (cs ++ ['\r']) ts) :
    ∃ ts', Yields line offset column cs ts' ∧ ts'.map Token.view = ts.map Token.view := by
  generalize hchars : cs ++ ['\r'] = chars at h
  induction h generalizing cs with
  | done => simp at hchars
  | blank hc h ih =>
    rcases List.append_eq_cons_iff.1 hchars with ⟨rfl, heq⟩ | ⟨cs, rfl, rfl⟩
    · cases heq
      cases h
      exact ⟨[], .done, rfl⟩
    · obtain ⟨ts', hts', hviews⟩ := ih rfl
      exact ⟨ts', .blank hc hts', hviews⟩
  | @token column c front rest kind ts hc hfront h ih =>
    rcases List.append_eq_cons_iff.1 hchars with ⟨rfl, heq⟩ | ⟨cs, rfl, heq⟩
    · obtain ⟨rfl, -⟩ := List.cons.inj heq
      cases hc
    have hsum := congrArg List.length heq
    simp only [List.length_append, List.length_singleton] at hsum
    rw [heq] at hfront
    rcases front_of_concat_return hfront with hfront' | ⟨text, rfl, rfl, rfl, hlength⟩
    · -- the token ends before the carriage return
      have hle := (front_le hfront').2
      obtain ⟨middle, rfl, rfl⟩ : ∃ middle, cs = front ++ middle ∧ rest = middle ++ ['\r'] := by
        rcases List.append_eq_append_iff.1 heq with hmiddle | ⟨more, rfl, hmore⟩
        · exact hmiddle
        · rw [List.length_append] at hle
          obtain rfl : more = [] := List.eq_nil_of_length_eq_zero (by omega)
          exact ⟨[], by simp, hmore.symm⟩
      obtain ⟨ts', hts', hviews⟩ := ih rfl
      exact ⟨_, .token hc hfront' hts', by simp [Token.view, hviews]⟩
    · -- the carriage return belongs to a comment
      obtain rfl : rest = [] := List.eq_nil_of_length_eq_zero (by simp at hsum; omega)
      cases h
      refine ⟨_, .single hc (front_eq_ok_iff.2 .comment), ?_⟩
      simp [Token.view, Text.trim_concat (show isBlank '\r' = true by rfl)]

/-- A line feed behind a line changes nothing. -/
lemma closed {text : List Char} (h : Yields line offset column text ts) (htext : '\n' ∉ text) :
    ∃ ts', Yields line offset column (Text.content (text ++ ['\n'])) ts' ∧
      ts'.map Token.view = ts.map Token.view := by
  rcases Text.content_concat_newline text with hcontent | ⟨cs, rfl, hcontent⟩
  · exact ⟨ts, by rwa [hcontent], rfl⟩
  · rw [hcontent]
    exact h.concat_return

end Yields

end Scan

/-! ### Texts -/

namespace Scanner

variable {s : Scanner} {text : List Char} {texts : List (List Char)} {ts : List Token}

/-- Lines are read alike wherever they stand. -/
lemma all_move (h : s.all texts = .ok ts) (s' : Scanner) :
    ∃ ts', s'.all texts = .ok ts' ∧ ts'.map Token.piece = ts.map Token.piece := by
  induction texts generalizing s s' ts with
  | nil =>
    cases h
    exact ⟨[], rfl, rfl⟩
  | cons text texts ih =>
    obtain ⟨first, later, hfirst, hlater, rfl⟩ := all_cons_eq_ok.1 h
    obtain ⟨first', hfirst', hpieces⟩ := hfirst.move (s'.lines + 1) s'.offset 0
    obtain ⟨later', hlater', hpieces'⟩ := ih hlater ⟨s'.lines + 1, s'.offset + text.length⟩
    refine ⟨first' ++ later', all_cons_eq_ok.2 ⟨first', later', hfirst', hlater', rfl⟩, ?_⟩
    rw [List.map_append, List.map_append, hpieces, hpieces']

/-- **A text that goes on behind a line feed** is read as before, and then from some place on. -/
theorem all_closed (h : s.all (Text.lines text) = .ok ts) :
    ∃ ts' s', ts'.map Token.view = ts.map Token.view ∧
      ∀ rest later, all s' (Text.lines rest) = .ok later →
        s.all (Text.lines (text ++ '\n' :: rest)) = .ok (ts' ++ later) := by
  induction text using Text.line_induction generalizing s ts with
  | nil =>
    cases h
    refine ⟨[], ⟨s.lines + 1, s.offset + 1⟩, rfl, fun rest later hlater => ?_⟩
    rw [Text.lines_append_cons (by simp), all_cons_eq_ok]
    exact ⟨[], later, .done, hlater, rfl⟩
  | last line hline hne =>
    rw [Text.lines_of_oneLine hline hne, all_cons_eq_ok] at h
    obtain ⟨first, later, hfirst, hlater, rfl⟩ := h
    cases hlater
    rw [Text.content_of_oneLine hline] at hfirst
    obtain ⟨first', hfirst', hviews⟩ := hfirst.closed hline
    refine ⟨first', ⟨s.lines + 1, s.offset + (line ++ ['\n']).length⟩, by simpa using hviews, ?_⟩
    intro rest later hlater
    rw [Text.lines_append_cons hline, all_cons_eq_ok]
    exact ⟨first', later, hfirst', hlater, rfl⟩
  | cons line text hline ih =>
    rw [Text.lines_append_cons hline, all_cons_eq_ok] at h
    obtain ⟨first, later, hfirst, hlater, rfl⟩ := h
    obtain ⟨later', s', hviews, hrest⟩ := ih hlater
    refine ⟨first ++ later', s', by simp [hviews], fun rest more hmore => ?_⟩
    rw [List.append_assoc, List.cons_append, Text.lines_append_cons hline, all_cons_eq_ok]
    exact ⟨first, later' ++ more, hfirst, hrest rest more hmore, by simp⟩

end Scanner

/-- **A text, a line with a semicolon, and another text** are read as the tokens of the one, a semicolon
and the tokens of the other. -/
theorem tokenize_joined {a b : String} {ts us : List Token} (ha : tokenize a = .ok ts)
    (hb : tokenize b = .ok us) : ∃ ts' semicolon us',
      tokenize (a ++ "\n;\n" ++ b) = .ok (ts' ++ semicolon :: us') ∧
      ts'.map Token.view = ts.map Token.view ∧ semicolon.kind = .mark .semicolon ∧
      us'.map Token.view = us.map Token.view := by
  obtain ⟨ts', s', hviews, hrest⟩ := Scanner.all_closed ha
  obtain ⟨us', hus', hpieces⟩ := Scanner.all_move hb ⟨s'.lines + 1, s'.offset + 2⟩
  have hsemicolon : Scan.front ';' [] = .ok (.mark .semicolon, 1) := rfl
  refine ⟨ts', ⟨.mark .semicolon, ⟨s'.offset, s'.offset + 1, ⟨s'.lines + 1, 1⟩⟩, ";"⟩, us', ?_, hviews,
    rfl, Token.views_of_pieces hpieces⟩
  have htext : (a ++ "\n;\n" ++ b).toList = a.toList ++ '\n' :: ([';'] ++ '\n' :: b.toList) := by simp
  unfold tokenize
  rw [htext]
  refine hrest _ _ ?_
  rw [Text.lines_append_cons (by decide), Scanner.all_cons_eq_ok]
  exact ⟨_, us', .single (by rfl) hsemicolon, hus', rfl⟩

namespace Spelled

variable {kind : Token.Kind} {c : Char} {cs : List Char}

/-- A token is read again where nothing follows it. -/
lemma front_alone (h : Spelled kind (c :: cs)) : Scan.front c cs = .ok (kind, cs.length + 1) := by
  by_cases hcomment : ∀ text, kind ≠ .comment text
  · have hfront : Scan.front c (cs ++ []) = _ := h.front (by simp [Delimited]) hcomment
    rwa [List.append_nil] at hfront
  · simp only [ne_eq, not_forall, not_not] at hcomment
    obtain ⟨text, rfl⟩ := hcomment
    generalize hkind : Token.Kind.comment text = kind at h ⊢
    generalize hchars : c :: cs = chars at h
    cases h with
    | comment =>
      cases hchars
      exact Scan.front_eq_ok_iff.2 .comment
    | @word d ds =>
      rcases wordKind_cases (String.ofList (d :: ds)) with hword | ⟨k, hword⟩ <;> rw [hword] at hkind <;>
        cases hkind
    | _ => cases hkind

/-- The characters of a token are read as this token. -/
lemma exists_all {t : Token} (h : Spelled t.kind t.lexeme.toList) (s : Scanner) :
    ∃ t', s.all (Text.lines t.lexeme.toList) = .ok [t'] ∧ t'.piece = t.piece := by
  obtain ⟨c, cs, hchars⟩ := List.exists_cons_of_ne_nil h.ne_nil
  have hlexeme : String.ofList (c :: cs) = t.lexeme := by rw [← hchars, String.ofList_toList]
  rw [hchars] at h ⊢
  refine ⟨⟨t.kind, ⟨s.offset, s.offset + (cs.length + 1), ⟨s.lines + 1, 1⟩⟩, String.ofList (c :: cs)⟩,
    ?_, ?_⟩
  · rw [Text.lines_of_oneLine h.oneLine (by simp), Scanner.all_cons_eq_ok]
    refine ⟨_, [], ?_, rfl, (List.append_nil _).symm⟩
    rw [Text.content_of_oneLine h.oneLine]
    exact .single h.isBlank_head h.front_alone
  · rw [Token.piece, Token.piece, hlexeme]

end Spelled

/-- **The tokens of a source, each on a line of its own**, are read again. -/
theorem tokenize_onLines {source ending : String} {ts : List Token} (h : tokenize source = .ok ts)
    (hending : ending = "" ∨ ending = "\n") :
    ∃ ts', tokenize ("\n".intercalate (ts.map Token.lexeme) ++ ending) = .ok ts' ∧
      ts'.map Token.view = ts.map Token.view := by
  have hspelled := Token.spelled_of_tokenize h
  unfold tokenize
  rw [String.toList_append, String.toList_intercalate, List.map_map]
  generalize ({} : Scanner) = s
  clear h
  induction ts generalizing s with
  | nil =>
    rcases hending with rfl | rfl
    · exact ⟨[], rfl, rfl⟩
    · exact ⟨[], rfl, rfl⟩
  | cons t ts ih =>
    obtain ⟨ht, hts⟩ := List.forall_mem_cons.1 hspelled
    obtain ⟨t', ht', hpiece⟩ := ht.exists_all s
    have hview : t'.view = t.view := Token.view_of_piece hpiece
    obtain ⟨first, s', hfirst, hrest⟩ := Scanner.all_closed ht'
    have hfirst : first.map Token.view = [t.view] := by rw [hfirst, List.map_singleton, hview]
    by_cases hlast : ts = []
    · subst hlast
      rcases hending with rfl | rfl
      · exact ⟨[t'], by simpa using ht', by simp [hview]⟩
      · exact ⟨first, by simpa using hrest [] [] rfl, by simp [hfirst]⟩
    · obtain ⟨later, hlater, hviews⟩ := ih hts s'
      refine ⟨first ++ later, ?_, by simp [hfirst, hviews]⟩
      rw [List.map_cons, List.intercalate_cons_of_ne_nil (by simpa using hlast)]
      simpa using hrest _ later hlater

end Shading
