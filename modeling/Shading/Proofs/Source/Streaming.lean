import Shading.Proofs.Text.Encoding

/-!
# Sources read as a stream

A source that is read line by line, each line decoded on its own, gives the tokens of its text.  Where
the bytes are no text, reading stops at the first line that is none, unless a line before it stops the
scan.

* `Reading.map_line_ofBytes` — the lines that bytes make;
* `scanReadings_ok`, `scanReadings_error` — lines that can all be read, and lines up to a fault;
* `tokenizeReadings_ofBytes` — a stream against its text.
-/

namespace Shading

open Utf8

/-! ### The lines of bytes -/

namespace Reading

/-- A piece that ends with a line feed is a line, and so is the last piece without one. -/
lemma map_line_readings (asked : Nat) (bytes : List UInt8) :
    (readings asked [] ((Text.splitAfter (· == 10) bytes).map .ok)).map line =
      (Text.splitAfter (· == 10) bytes).map decode := by
  induction bytes using Text.piece_induction (· == (10 : UInt8)) generalizing asked with
  | nil => rfl
  | last piece hpiece hne =>
    have hlast : piece.getLast? ≠ some 10 := by
      intro h
      simpa using hpiece 10 (List.mem_of_getLast? h)
    rw [Text.splitAfter_of_forall hpiece hne]
    simp [readings, hlast, hne]
  | cons piece b rest hpiece hb ih =>
    obtain rfl : b = 10 := by simpa using hb
    rw [Text.splitAfter_append_cons hpiece hb]
    simp [readings, ih]

/-- The lines of bytes are decoded one by one. -/
lemma map_line_ofBytes (bytes : List UInt8) :
    (ofBytes bytes).map line = (Text.splitAfter (· == 10) bytes).map decode :=
  map_line_readings 0 bytes

end Reading

/-! ### Scanning what is read -/

section

variable {s : Scanner} {asked : Nat} {readings : List Reading} {texts : List (List Char)}

/-- Lines that can all be read are scanned as they are in a text. -/
lemma scanReadings_ok (h : readings.map Reading.line = texts.map .ok) :
    scanReadings (fun _ => false) s asked readings = (s.all texts).mapError .scan := by
  induction texts generalizing s asked readings with
  | nil =>
    obtain rfl := List.map_eq_nil_iff.1 h
    rfl
  | cons text texts ih =>
    obtain ⟨reading, later, rfl, hline, hlater⟩ := List.map_eq_cons_iff.1 h
    simp only [scanReadings, hline, Scanner.all]
    rcases s.line text with ⟨s', _ | ts⟩
    · rfl
    · simp only [ih hlater]
      cases s'.all texts <;> rfl

/-- Before a line that cannot be read, the scan may be stopped already. -/
lemma scanReadings_error {fault : IoFault} {later : List (Except IoFault (List Char))}
    (h : readings.map Reading.line = texts.map .ok ++ .error fault :: later) :
    scanReadings (fun _ => false) s asked readings =
      match s.all texts with
      | .error stop => .error (.scan stop)
      | .ok _ => .error (.read fault) := by
  induction texts generalizing s asked readings with
  | nil =>
    obtain ⟨reading, later, rfl, hline, -⟩ := List.map_eq_cons_iff.1 h
    simp [scanReadings, hline, Scanner.all]
  | cons text texts ih =>
    obtain ⟨reading, later, rfl, hline, hlater⟩ := List.map_eq_cons_iff.1 h
    simp only [scanReadings, hline, Scanner.all]
    rcases s.line text with ⟨s', _ | ts⟩
    · rfl
    · simp only [ih hlater]
      cases s'.all texts <;> rfl

end

/-! ### Bytes and texts -/

/-- Lines that are texts, one by one. -/
lemma Utf8.exists_texts {lines : List (List UInt8)} (h : ∀ line ∈ lines, Valid line) :
    ∃ texts : List (List Char), lines = texts.map encode := by
  induction lines with
  | nil => exact ⟨[], rfl⟩
  | cons line lines ih =>
    obtain ⟨hline, hlines⟩ := List.forall_mem_cons.1 h
    obtain ⟨text, rfl⟩ := valid_iff.1 hline
    obtain ⟨texts, rfl⟩ := ih hlines
    exact ⟨text :: texts, rfl⟩

/-- Bytes that are no text have a first line that is none. -/
lemma Utf8.exists_invalid_line {bytes : List UInt8} (h : ¬ Valid bytes) :
    ∃ before bad after, Text.splitAfter (· == 10) bytes = before ++ bad :: after ∧
      (∀ line ∈ before, Valid line) ∧ ¬ Valid bad := by
  have hsome : ∃ line ∈ Text.splitAfter (· == 10) bytes, ¬ Valid line := by
    by_contra hall
    push Not at hall
    obtain ⟨texts, htexts⟩ := exists_texts hall
    refine h (valid_iff.2 ⟨texts.flatten, ?_⟩)
    rw [encode_flatten, ← htexts, Text.flatten_splitAfter]
  generalize Text.splitAfter (· == 10) bytes = lines at hsome ⊢
  induction lines with
  | nil => simp at hsome
  | cons line lines ih =>
    by_cases hline : Valid line
    · obtain ⟨bad, hmem, hbad⟩ := hsome
      have hmem : bad ∈ lines := (List.mem_cons.1 hmem).resolve_left fun heq => hbad (heq ▸ hline)
      obtain ⟨before, bad, after, rfl, hbefore, hbad⟩ := ih ⟨bad, hmem, hbad⟩
      exact ⟨line :: before, bad, after, rfl, List.forall_mem_cons.2 ⟨hline, hbefore⟩, hbad⟩
    · exact ⟨[], line, lines, rfl, by simp, hline⟩

/-- **A stream gives the tokens of its text.**  If the bytes are those of a text, reading them line by
line gives what the text gives, tokens or a fault.  If they are those of no text, reading gives no tokens:
it stops with the fault that the lines before the first one that is no text give, if they give one, and
otherwise with that of this line. -/
theorem tokenizeReadings_ofBytes (bytes : List UInt8) :
    (∀ source, Encodes source bytes →
      tokenizeReadings (fun _ => false) (Reading.ofBytes bytes) = (tokenize source).mapError .scan) ∧
    (¬ Valid bytes → ∃ before bad after source flaw,
      Text.splitAfter (· == 10) bytes = before ++ bad :: after ∧
      Encodes source before.flatten ∧ (∀ line ∈ before, Valid line) ∧ ¬ Valid bad ∧
      Utf8.flaw? bad = some flaw ∧
      tokenizeReadings (fun _ => false) (Reading.ofBytes bytes) =
        match tokenize source with
        | .error fault => .error (.scan fault)
        | .ok _ => .error (.read (.invalidText flaw))) := by
  constructor
  · intro source hsource
    refine scanReadings_ok ?_
    rw [Reading.map_line_ofBytes, ← encodes_iff.1 hsource, splitAfter_encode, List.map_map]
    exact List.map_congr_left fun line _ => Reading.decode_eq_ok.2 rfl
  · intro hbytes
    obtain ⟨before, bad, after, hlines, hbefore, hbad⟩ := exists_invalid_line hbytes
    obtain ⟨flaw, hflaw, hdecode⟩ := Reading.exists_decode_eq_error hbad
    obtain ⟨texts, htexts⟩ := exists_texts hbefore
    have hencodes : Encodes (String.ofList texts.flatten) before.flatten := by
      rw [encodes_ofList, encode_flatten, htexts]
    refine ⟨before, bad, after, String.ofList texts.flatten, flaw, hlines, hencodes, hbefore, hbad,
      hflaw, ?_⟩
    have hwhole : Text.lines texts.flatten = texts := by
      refine List.map_injective_iff.2 encode_injective ?_
      rw [← splitAfter_encode, encode_flatten, ← htexts, Text.splitAfter_flatten hlines]
    unfold tokenize
    rw [String.toList_ofList, hwhole]
    have hread : (Reading.ofBytes bytes).map Reading.line =
        texts.map .ok ++ .error (.invalidText flaw) :: after.map Reading.decode := by
      rw [Reading.map_line_ofBytes, hlines, List.map_append, List.map_cons, hdecode, htexts, List.map_map]
      congr 1
      exact List.map_congr_left fun line _ => Reading.decode_eq_ok.2 rfl
    exact scanReadings_error hread

/-- A string with a character of two bytes; and an unknown token before a line that is no text, which is
not reached. -/
theorem tokenizeReadings_ofBytes_flawed :
    let whole : List UInt8 := [0x22, 0xC3, 0xA9, 0x22, 10]
    let flawed : List UInt8 := [0x24, 10, 0xC3]
    Encodes "\"é\"\n" whole ∧
    tokenizeReadings (fun _ => false) (Reading.ofBytes whole) = (tokenize "\"é\"\n").mapError .scan ∧
    ¬ Valid flawed ∧ ∃ before bad after source flaw,
      Text.splitAfter (· == 10) flawed = before ++ bad :: after ∧
      Encodes source before.flatten ∧ (∀ line ∈ before, Valid line) ∧ ¬ Valid bad ∧
      Utf8.flaw? bad = some flaw ∧
      tokenizeReadings (fun _ => false) (Reading.ofBytes flawed) =
        match tokenize source with
        | .error fault => .error (.scan fault)
        | .ok _ => .error (.read (.invalidText flaw)) := by
  intro whole flawed
  have hwhole : Encodes "\"é\"\n" whole := by rfl
  have hflawed : ¬ Valid flawed := by decide +kernel
  exact ⟨hwhole, (tokenizeReadings_ofBytes whole).1 _ hwhole, hflawed,
    (tokenizeReadings_ofBytes flawed).2 hflawed⟩

end Shading
