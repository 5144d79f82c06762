import Mathlib.Data.List.Basic
import Shading.Proofs.Token.Steps
import Shading.Source.Reading

/-!
# Texts and their bytes

A line feed is one byte, and no other character has this byte in its encoding.  So bytes may be cut into
lines before they are decoded or afterwards.

* `Utf8.Encodes`, `Utf8.Valid` — the bytes of a text, and bytes that are those of some text;
* `Utf8.splitAfter_encode` — the lines of encoded bytes are the lines of the text, encoded;
* `Utf8.exists_encode_of_flawFrom` — bytes without a flaw are a text;
* `Reading.decode_eq_ok`, `Reading.exists_decode_eq_error` — what becomes of a line.
-/

namespace Shading

namespace Utf8

/-- These are the bytes of the text. -/
def Encodes (text : String) (bytes : List UInt8) : Prop := text.toUTF8.data.toList = bytes

/-- The bytes are those of some text. -/
def Valid (bytes : List UInt8) : Prop := ∃ text, Encodes text bytes

/-- The bytes of characters one behind another. -/
def encode (cs : List Char) : List UInt8 := cs.flatMap String.utf8EncodeChar

@[simp] lemma encode_nil : encode [] = [] := rfl

@[simp] lemma encode_cons (c : Char) (cs : List Char) :
    encode (c :: cs) = String.utf8EncodeChar c ++ encode cs := rfl

@[simp] lemma encode_append (cs ds : List Char) : encode (cs ++ ds) = encode cs ++ encode ds :=
  List.flatMap_append

lemma encode_flatten (texts : List (List Char)) : encode texts.flatten = (texts.map encode).flatten := by
  induction texts with
  | nil => rfl
  | cons text texts ih => simp [ih]

lemma toUTF8_data (text : String) : text.toUTF8.data.toList = encode text.toList := by
  conv_lhs => rw [← String.ofList_toList (s := text)]
  rw [String.toUTF8_eq_toByteArray]
  exact congrArg Array.toList (List.data_toByteArray)

lemma encodes_iff {text : String} {bytes : List UInt8} :
    Encodes text bytes ↔ encode text.toList = bytes := by
  rw [Encodes, toUTF8_data]

lemma encodes_ofList {cs : List Char} {bytes : List UInt8} :
    Encodes (String.ofList cs) bytes ↔ encode cs = bytes := by
  rw [encodes_iff, String.toList_ofList]

lemma valid_iff {bytes : List UInt8} : Valid bytes ↔ ∃ cs, encode cs = bytes := by
  constructor
  · rintro ⟨text, h⟩
    exact ⟨text.toList, encodes_iff.1 h⟩
  · rintro ⟨cs, h⟩
    exact ⟨String.ofList cs, encodes_ofList.2 h⟩

lemma valid_iff_isValidUTF8 {bytes : List UInt8} : Valid bytes ↔ bytes.toByteArray.IsValidUTF8 := by
  rw [valid_iff]
  constructor
  · rintro ⟨cs, rfl⟩
    exact ⟨cs, rfl⟩
  · rintro ⟨cs, hcs⟩
    refine ⟨cs, ?_⟩
    have hdata := congrArg (·.data.toList) hcs
    simpa [encode, List.utf8Encode] using hdata.symm

instance (bytes : List UInt8) : Decidable (Valid bytes) :=
  decidable_of_iff bytes.toByteArray.IsValidUTF8 valid_iff_isValidUTF8.symm

lemma encode_injective : Function.Injective encode := by
  intro cs ds h
  have hdata : (String.ofList cs).toUTF8.data.toList = (String.ofList ds).toUTF8.data.toList := by
    rw [toUTF8_data, toUTF8_data, String.toList_ofList, String.toList_ofList, h]
  have hbytes : (String.ofList cs).toByteArray = (String.ofList ds).toByteArray :=
    ByteArray.ext (Array.toList_inj.1 hdata)
  exact String.ofList_injective (String.toByteArray_inj.1 hbytes)

/-! ### Line feeds -/

lemma encode_lineFeed : String.utf8EncodeChar '\n' = [10] := rfl

/-- No other character has this byte: a byte is the code of its character, or 128 at least. -/
lemma eq_lineFeed_of_mem {c : Char} (h : 10 ∈ String.utf8EncodeChar c) : c = '\n' := by
  suffices hval : c.val.toNat = 10 from Char.ext (UInt32.toNat_inj.1 hval)
  simp only [String.utf8EncodeChar] at h
  generalize c.val.toNat = v at h ⊢
  have hbyte : ∀ n : Nat, (10 : UInt8) = UInt8.ofNat n ↔ n % 256 = 10 := fun n => by
    rw [eq_comm, UInt8.ofNat_eq_iff_mod_eq_toNat]
    rfl
  split at h
  · simp only [List.mem_singleton, hbyte] at h
    omega
  · split at h
    · simp only [List.mem_cons, List.not_mem_nil, or_false, hbyte] at h
      omega
    · split at h <;> simp only [List.mem_cons, List.not_mem_nil, or_false, hbyte] at h <;> omega

lemma ten_mem_encode {cs : List Char} : 10 ∈ encode cs ↔ '\n' ∈ cs := by
  unfold encode
  rw [List.mem_flatMap]
  constructor
  · rintro ⟨c, hc, h⟩
    exact eq_lineFeed_of_mem h ▸ hc
  · intro h
    exact ⟨'\n', h, by rw [encode_lineFeed]; exact List.mem_singleton_self 10⟩

/-- **Bytes are cut into lines as their text is.** -/
theorem splitAfter_encode (cs : List Char) :
    Text.splitAfter (· == 10) (encode cs) = (Text.lines cs).map encode := by
  have hinside : ∀ {line : List Char}, '\n' ∉ line → ∀ b ∈ encode line, (b == 10) = false := by
    intro line hline b hb
    rw [beq_eq_false_iff_ne]
    rintro rfl
    exact hline (ten_mem_encode.1 hb)
  induction cs using Text.line_induction with
  | nil => rfl
  | last line hline hne =>
    have hencode : encode line ≠ [] := by
      obtain ⟨c, cs, rfl⟩ := List.exists_cons_of_ne_nil hne
      simp
    rw [Text.lines_of_oneLine hline hne, Text.splitAfter_of_forall (hinside hline) hencode]
    rfl
  | cons line rest hline ih =>
    have hlast : encode (line ++ ['\n']) = encode line ++ [10] := by
      rw [encode_append, encode_cons, encode_lineFeed, encode_nil]
      rfl
    rw [Text.lines_append_cons hline, List.map_cons, hlast, encode_append, encode_cons,
      encode_lineFeed, List.singleton_append, Text.splitAfter_append_cons (hinside hline) (by rfl), ih]

/-! ### Flaws -/

/-- The characters of one to four bytes, told from their bytes. -/
inductive Sequence : List UInt8 → Prop
  | one {a : UInt8} (ha : a < 0x80) : Sequence [a]
  | two {a b : UInt8} (ha : 0xC2 ≤ a ∧ a < 0xE0) (hb : 0x80 ≤ b ∧ b ≤ 0xBF) : Sequence [a, b]
  | three {a b c : UInt8} (ha : 0xE0 ≤ a ∧ a < 0xF0) (hb : 0x80 ≤ b ∧ b ≤ 0xBF)
    (hlow : a = 0xE0 → 0xA0 ≤ b) (hhigh : a = 0xED → b ≤ 0x9F) (hc : 0x80 ≤ c ∧ c ≤ 0xBF) :
    Sequence [a, b, c]
  | four {a b c d : UInt8} (ha : 0xF0 ≤ a ∧ a ≤ 0xF4) (hb : 0x80 ≤ b ∧ b ≤ 0xBF)
    (hlow : a = 0xF0 → 0x90 ≤ b) (hhigh : a = 0xF4 → b ≤ 0x8F) (hc : 0x80 ≤ c ∧ c ≤ 0xBF)
    (hd : 0x80 ≤ d ∧ d ≤ 0xBF) : Sequence [a, b, c, d]

lemma exists_char {v : Nat} (h : v.isValidChar) : ∃ c : Char, c.val.toNat = v :=
  ⟨Char.ofNatAux v h, rfl⟩

lemma ofNat_eq_of_toNat {n : Nat} {b : UInt8} (h : n = b.toNat) : UInt8.ofNat n = b := by
  rw [h, UInt8.ofNat_toNat]

/-- Each of them is the encoding of a character, whose code is put together from the bytes. -/
lemma Sequence.exists_char {bytes : List UInt8} (h : Sequence bytes) :
    ∃ c, String.utf8EncodeChar c = bytes := by
  cases h with
  | @one a ha =>
    simp only [UInt8.lt_iff_toNat_lt, UInt8.reduceToNat] at ha
    obtain ⟨c, hc⟩ := Utf8.exists_char (v := a.toNat) (.inl (by omega))
    refine ⟨c, ?_⟩
    simp only [String.utf8EncodeChar]
    rw [if_pos (by omega), ofNat_eq_of_toNat hc]
  | @two a b ha hb =>
    simp only [UInt8.lt_iff_toNat_lt, UInt8.le_iff_toNat_le, UInt8.reduceToNat] at ha hb
    obtain ⟨c, hc⟩ := Utf8.exists_char (v := (a.toNat - 0xC0) * 64 + (b.toNat - 0x80)) (.inl (by omega))
    refine ⟨c, ?_⟩
    simp only [String.utf8EncodeChar]
    rw [if_neg (by omega), if_pos (by omega), ofNat_eq_of_toNat (b := a) (by omega),
      ofNat_eq_of_toNat (b := b) (by omega)]
  | @three a b c ha hb hlow hhigh hc =>
    simp only [UInt8.lt_iff_toNat_lt, UInt8.le_iff_toNat_le, ← UInt8.toNat_inj, UInt8.reduceToNat]
      at ha hb hlow hhigh hc
    obtain ⟨char, hchar⟩ := Utf8.exists_char
      (v := (a.toNat - 0xE0) * 4096 + (b.toNat - 0x80) * 64 + (c.toNat - 0x80))
      (by unfold Nat.isValidChar; omega)
    refine ⟨char, ?_⟩
    simp only [String.utf8EncodeChar]
    rw [if_neg (by omega), if_neg (by omega), if_pos (by omega), ofNat_eq_of_toNat (b := a) (by omega),
      ofNat_eq_of_toNat (b := b) (by omega), ofNat_eq_of_toNat (b := c) (by omega)]
  | @four a b c d ha hb hlow hhigh hc hd =>
    simp only [UInt8.le_iff_toNat_le, ← UInt8.toNat_inj, UInt8.reduceToNat] at ha hb hlow hhigh hc hd
    obtain ⟨char, hchar⟩ := Utf8.exists_char (v := (a.toNat - 0xF0) * 262144 +
        (b.toNat - 0x80) * 4096 + (c.toNat - 0x80) * 64 + (d.toNat - 0x80))
      (by unfold Nat.isValidChar; omega)
    refine ⟨char, ?_⟩
    simp only [String.utf8EncodeChar]
    rw [if_neg (by omega), if_neg (by omega), if_neg (by omega), ofNat_eq_of_toNat (b := a) (by omega),
      ofNat_eq_of_toNat (b := b) (by omega), ofNat_eq_of_toNat (b := c) (by omega),
      ofNat_eq_of_toNat (b := d) (by omega)]

section

variable {b low high : UInt8} {start read owed : Nat} {bytes : List UInt8}

/-- What a first byte asks for. -/
lemma lead?_cases (h : lead? b = some (owed, low, high)) :
    (owed = 0 ∧ b < 0x80) ∨
    (owed = 1 ∧ (0xC2 ≤ b ∧ b < 0xE0) ∧ low = 0x80 ∧ high = 0xBF) ∨
    (owed = 2 ∧ (0xE0 ≤ b ∧ b < 0xF0) ∧ (0x80 ≤ low ∧ high ≤ 0xBF) ∧ (b = 0xE0 → low = 0xA0) ∧
      (b = 0xED → high = 0x9F)) ∨
    (owed = 3 ∧ (0xF0 ≤ b ∧ b ≤ 0xF4) ∧ (0x80 ≤ low ∧ high ≤ 0xBF) ∧ (b = 0xF0 → low = 0x90) ∧
      (b = 0xF4 → high = 0x8F)) := by
  unfold lead? at h
  by_cases h80 : b < 0x80
  · rw [if_pos h80] at h
    cases h
    exact .inl ⟨rfl, h80⟩
  rw [if_neg h80] at h
  by_cases hC2 : b < 0xC2
  · rw [if_pos hC2] at h
    cases h
  rw [if_neg hC2] at h
  by_cases hE0 : b < 0xE0
  · rw [if_pos hE0] at h
    cases h
    exact .inr (.inl ⟨rfl, ⟨UInt8.not_lt.1 hC2, hE0⟩, rfl, rfl⟩)
  rw [if_neg hE0] at h
  -- only a few first bytes narrow the range of the byte behind them
  by_cases hF0 : b < 0xF0
  · refine .inr (.inr (.inl ?_))
    grind
  · refine .inr (.inr (.inr ?_))
    grind

/-- The next byte, when one is owed. -/
lemma exists_of_flawFrom (h : flawFrom start read (owed + 1) low high bytes = none) :
    ∃ b bs start' read', bytes = b :: bs ∧ (low ≤ b ∧ b ≤ high) ∧
      flawFrom start' read' owed 0x80 0xBF bs = none := by
  cases bytes with
  | nil => cases h
  | cons b bs =>
    rw [flawFrom, if_neg (by omega)] at h
    split at h
    · next hb =>
      rw [Bool.and_eq_true, decide_eq_true_iff, decide_eq_true_iff] at hb
      split at h
      · next hone =>
        obtain rfl : owed = 0 := by omega
        exact ⟨b, bs, _, _, rfl, hb, h⟩
      · exact ⟨b, bs, _, _, rfl, hb, h⟩
    · cases h

/-- A whole character stands at the front, and no flaw behind it. -/
lemma exists_sequence {a : UInt8} (h : flawFrom start read 0 low high (a :: bytes) = none) :
    ∃ front rest start' read' low' high', a :: bytes = front ++ rest ∧ Sequence front ∧
      flawFrom start' read' 0 low' high' rest = none := by
  rw [flawFrom, if_pos rfl] at h
  split at h
  · cases h
  · next hlead =>
    rcases lead?_cases hlead with ⟨-, ha⟩ | ⟨hzero, -⟩ | ⟨hzero, -⟩ | ⟨hzero, -⟩
    · exact ⟨[a], bytes, _, _, _, _, rfl, .one ha, h⟩
    · cases hzero
    · cases hzero
    · cases hzero
  · next owed low high hpos hlead =>
    -- the range of the second byte lies in that of all bytes behind a first one
    have hwithin : ∀ {b : UInt8}, 0x80 ≤ low ∧ high ≤ 0xBF → low ≤ b ∧ b ≤ high → 0x80 ≤ b ∧ b ≤ 0xBF :=
      fun hrange hb => ⟨UInt8.le_trans hrange.1 hb.1, UInt8.le_trans hb.2 hrange.2⟩
    rcases lead?_cases hlead with ⟨rfl, -⟩ | ⟨rfl, ha, rfl, rfl⟩ | ⟨rfl, ha, hrange, hlow, hhigh⟩ |
      ⟨rfl, ha, hrange, hlow, hhigh⟩
    · exact absurd rfl hpos
    · obtain ⟨b, rest, _, _, rfl, hb, h⟩ := exists_of_flawFrom h
      exact ⟨[a, b], rest, _, _, _, _, rfl, .two ha hb, h⟩
    · obtain ⟨b, bs, _, _, rfl, hb, h⟩ := exists_of_flawFrom h
      obtain ⟨c, rest, _, _, rfl, hc, h⟩ := exists_of_flawFrom h
      refine ⟨[a, b, c], rest, _, _, _, _, rfl, .three ha (hwithin hrange hb) ?_ ?_ hc, h⟩
      · exact fun he => hlow he ▸ hb.1
      · exact fun he => hhigh he ▸ hb.2
    · obtain ⟨b, bs, _, _, rfl, hb, h⟩ := exists_of_flawFrom h
      obtain ⟨c, bs, _, _, rfl, hc, h⟩ := exists_of_flawFrom h
      obtain ⟨d, rest, _, _, rfl, hd, h⟩ := exists_of_flawFrom h
      refine ⟨[a, b, c, d], rest, _, _, _, _, rfl, .four ha (hwithin hrange hb) ?_ ?_ hc hd, h⟩
      · exact fun he => hlow he ▸ hb.1
      · exact fun he => hhigh he ▸ hb.2

/-- **Bytes without a flaw are a text.** -/
lemma exists_encode_of_flawFrom (h : flawFrom start read 0 low high bytes = none) :
    ∃ cs, encode cs = bytes := by
  induction hn : bytes.length using Nat.strong_induction_on generalizing bytes start read low high with
  | _ n ih =>
    cases bytes with
    | nil => exact ⟨[], rfl⟩
    | cons a bs =>
      obtain ⟨front, rest, _, _, _, _, heq, hfront, hrest⟩ := exists_sequence h
      obtain ⟨c, rfl⟩ := hfront.exists_char
      have hpos : 0 < (String.utf8EncodeChar c).length := List.length_pos_iff.2 String.utf8EncodeChar_ne_nil
      have hlength : rest.length < n := by
        rw [← hn, heq, List.length_append]
        omega
      obtain ⟨cs, hcs⟩ := ih rest.length hlength hrest rfl
      exact ⟨c :: cs, by rw [encode_cons, hcs, heq]⟩

end

end Utf8

/-! ### Lines that are decoded -/

namespace Reading

open Utf8

lemma decode_eq_ok {bytes : List UInt8} {cs : List Char} : decode bytes = .ok cs ↔ encode cs = bytes := by
  unfold decode String.fromUTF8?
  by_cases hvalid : bytes.toByteArray.IsValidUTF8
  · rw [dif_pos hvalid]
    have hdata : (String.fromUTF8 _ hvalid).toUTF8.data.toList = bytes :=
      congrArg Array.toList List.data_toByteArray
    rw [toUTF8_data] at hdata
    constructor
    · intro h
      rw [← Except.ok.inj h, hdata]
    · intro h
      rw [encode_injective (h.trans hdata.symm)]
  · rw [dif_neg hvalid]
    constructor
    · intro h
      cases h
    · intro h
      exact absurd (valid_iff_isValidUTF8.1 (valid_iff.2 ⟨cs, h⟩)) hvalid

/-- A line that is no text is the fault for its first flaw. -/
lemma exists_decode_eq_error {bytes : List UInt8} (h : ¬ Valid bytes) :
    ∃ flaw, flaw? bytes = some flaw ∧ decode bytes = .error (.invalidText flaw) := by
  obtain ⟨flaw, hflaw⟩ : ∃ flaw, flaw? bytes = some flaw := by
    refine Option.ne_none_iff_exists'.1 fun hnone => h ?_
    exact valid_iff.2 (exists_encode_of_flawFrom hnone)
  refine ⟨flaw, hflaw, ?_⟩
  unfold decode String.fromUTF8?
  rw [dif_neg fun hvalid => h (valid_iff_isValidUTF8.2 hvalid), hflaw]
  rfl

end Reading

end Shading
