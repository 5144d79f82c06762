import Mathlib.Data.List.Chain
import Mathlib.Data.List.DropRight
import Mathlib.Logic.Relation
import Shading.Proofs.Include.NormalForm
import Shading.Session

/-!
# Spellings of a path

Many paths have one normal form.  A detour through `.`, or into a segment and back, does not change it,
nor does the way a slash is turned.  Blanks and the scheme do not get in the way: they are cut in front of
the slash where a detour begins, or behind the one where it ends.

A normal form is its own normal form only if it neither begins nor ends with a blank.  Blanks are cut
before the segments are told apart, so that the blanks of a segment may come to an end of the path later.

* `Path.segments_append_cons` — the segments before a slash, and those behind it;
* `Path.normalizeChars_congr` — what stands behind a slash matters by its segments only;
* `Path.Respells`, `Path.normalize_eq_of_respelled` — detours, and slashes turned round;
* `Path.length_normalizeChars_le` — no normal form is longer than its path;
* `Path.Unpadded`, `Path.normalize_normalize_iff` — which normal forms are their own.
-/

namespace Shading

open Text (isBlank trim trimStart trimEnd)

/-! ### Cutting blanks -/

namespace Text

variable {c : Char} (a b s : List Char)

/-- A character that is not blank ends what is cut at the start. -/
lemma trimStart_append_cons (hc : isBlank c = false) :
    trimStart (a ++ c :: b) = trimStart a ++ c :: b := by
  unfold trimStart
  rw [List.dropWhile_append]
  split
  · next hblank => simp [List.isEmpty_iff.1 hblank, hc]
  · rfl

lemma trimEnd_append_cons (hc : isBlank c = false) : trimEnd (a ++ c :: b) = a ++ c :: trimEnd b := by
  unfold trimEnd
  rw [List.reverse_append, List.reverse_cons, List.append_assoc, List.singleton_append,
    trimStart_append_cons _ _ hc]
  simp

lemma trim_append_cons (hc : isBlank c = false) :
    trim (a ++ c :: b) = trimStart a ++ c :: trimEnd b := by
  rw [trim, trimStart_append_cons _ _ hc, trimEnd_append_cons _ _ hc]

lemma trimStart_isSuffix : trimStart s <:+ s := List.dropWhile_suffix _

lemma trimEnd_isPrefix : trimEnd s <+: s := by
  have h := List.reverse_prefix.2 (trimStart_isSuffix s.reverse)
  rwa [List.reverse_reverse] at h

lemma head?_of_trimEnd {c : Char} (hc : (trimEnd s).head? = some c) : s.head? = some c := by
  obtain ⟨rest, hrest⟩ := trimEnd_isPrefix s
  rw [← hrest, List.head?_append, hc]
  rfl

lemma trim_isInfix : trim s <:+: s :=
  (trimEnd_isPrefix _).isInfix.trans (trimStart_isSuffix s).isInfix

/-- Nothing is cut exactly when neither end is blank. -/
lemma trim_eq_self_iff : trim s = s ↔
    (∀ c ∈ s.head?, isBlank c = false) ∧ ∀ c ∈ s.getLast?, isBlank c = false := by
  rw [← trimStart_eq_self_iff, ← trimEnd_eq_self_iff]
  constructor
  · intro h
    have hstart : trimStart s = s := by
      refine (trimStart_isSuffix s).eq_of_length_le ?_
      calc s.length = (trim s).length := by rw [h]
        _ ≤ (trimStart s).length := (trimEnd_isPrefix _).length_le
    exact ⟨hstart, by rwa [trim, hstart] at h⟩
  · rintro ⟨hstart, hend⟩
    rw [trim, hstart, hend]

/-- What is left has no blank at an end. -/
lemma trim_trim : trim (trim s) = trim s := by
  refine (trim_eq_self_iff _).2 ⟨fun c hc => ?_, ?_⟩
  · have hstart : trimStart (trimStart s) = trimStart s := List.dropWhile_idempotent ..
    exact (trimStart_eq_self_iff _).1 hstart c (head?_of_trimEnd _ hc)
  · rw [← trimEnd_eq_self_iff]
    unfold trim trimEnd trimStart
    rw [List.reverse_reverse, List.dropWhile_idempotent]

end Text

namespace Path

/-! ### Slashes turned round -/

lemma isBlank_slash (c : Char) : isBlank (slash c) = isBlank c := by
  unfold slash
  split
  · next h => rw [h]; rfl
  · rfl

lemma slash_slash (c : Char) : slash (slash c) = slash c := if_neg (slash_ne_backslash c)

lemma trim_map_slash (cs : List Char) : trim (cs.map slash) = (trim cs).map slash := by
  have hstart : ∀ s : List Char, trimStart (s.map slash) = (trimStart s).map slash := by
    intro s
    unfold trimStart
    rw [List.dropWhile_map]
    congr 2
    funext c
    exact isBlank_slash c
  unfold trim trimEnd
  rw [hstart, ← List.map_reverse, hstart, List.map_reverse]

/-- **The way a slash is turned does not matter.** -/
lemma normalizeChars_map_slash (cs : List Char) : normalizeChars (cs.map slash) = normalizeChars cs := by
  unfold normalizeChars
  rw [trim_map_slash, List.map_map]
  congr 5
  funext c
  exact slash_slash c

/-! ### Segments -/

lemma segments_append_cons (cs ds : List Char) :
    segments (cs ++ '/' :: ds) = segments cs ++ segments ds := by
  induction cs with
  | nil => rfl
  | cons c cs ih =>
    rw [List.cons_append, segments, segments, ih]
    split
    · rfl
    · cases hsegments : segments cs with
      | nil => exact absurd hsegments (segments_ne_nil cs)
      | cons s ss => rfl

section

variable (ss ts : List (List Char))

/-- A dot changes nothing. -/
lemma resolve_dot : resolve (ss ++ ['.'] :: ts) = resolve (ss ++ ts) := by
  simp [resolve, keep]

lemma keep_of_plain {s : List Char} (hs : Plain s) (kept : List (List Char)) :
    keep kept s = s :: kept := by
  unfold keep
  split
  · exact absurd rfl hs.ne_nil
  · exact absurd rfl hs.ne_dot
  · exact absurd rfl hs.ne_dots
  · rfl

/-- The way into a segment and back changes nothing. -/
lemma resolve_back {s : List Char} (hs : Plain s) :
    resolve (ss ++ s :: ['.', '.'] :: ts) = resolve (ss ++ ts) := by
  have hback : ∀ kept, keep (keep kept s) ['.', '.'] = kept := by
    intro kept
    rw [keep_of_plain hs]
    rfl
  unfold resolve
  rw [List.foldl_append, List.foldl_append, List.foldl_cons, List.foldl_cons, hback]

end

/-! ### Behind a slash -/

/-- **The scheme and a slash.**  Whatever stands behind a slash, unless it begins with another one, stays
as it is: the scheme ends before this slash, or with it, or there is none. -/
lemma dropScheme_append_cons (a : List Char) :
    (∃ a', ∀ r : List Char, r.head? ≠ some '/' → dropScheme (a ++ '/' :: r) = a' ++ '/' :: r) ∨
      ∀ r : List Char, r.head? ≠ some '/' → dropScheme (a ++ '/' :: r) = r := by
  by_cases hwhole : a ++ ['/'] = scheme
  · refine .inr fun r _ => ?_
    rw [List.append_cons, hwhole, dropScheme, List.take_left, if_pos rfl, List.drop_left]
  by_cases hprefix : scheme <+: a
  · obtain ⟨a', rfl⟩ := hprefix
    refine .inl ⟨a', fun r _ => ?_⟩
    rw [List.append_assoc, dropScheme, List.take_left, if_pos rfl, List.drop_left]
  · refine .inl ⟨a, fun r hr => if_neg fun htake => ?_⟩
    -- the scheme would have to go on behind the slash, where it has another slash
    have hscheme : scheme <+: a ++ '/' :: r := htake ▸ List.take_prefix _ _
    obtain ⟨rest, hrest⟩ := hscheme
    rcases List.append_eq_append_iff.1 hrest with ⟨a', rfl, -⟩ | ⟨tail, htail, hbehind⟩
    · exact hprefix ⟨a', rfl⟩
    · cases tail with
      | nil => exact hprefix ⟨[], by rw [htail, List.append_nil, List.append_nil]⟩
      | cons d tail =>
        obtain ⟨rfl, rfl⟩ := List.cons.inj hbehind
        cases tail with
        | nil => exact hwhole htail.symm
        | cons e tail =>
          have he : e ≠ '/' := by simpa using hr
          simp [scheme, List.cons_eq_append_iff, he] at htail

/-- What stands behind a slash, with its slashes turned one way and without blanks at its end. -/
def behind (cs : List Char) : List Char := (trimEnd cs).map slash

lemma prepared_append_cons (p q : List Char) :
    prepared (p ++ '/' :: q) = dropScheme ((trimStart p).map slash ++ '/' :: behind q) := by
  unfold prepared
  rw [Text.trim_append_cons p q (by rfl), List.map_append]
  rfl

lemma head?_behind {q : List Char} (hslash : q.head? ≠ some '/') (hback : q.head? ≠ some '\\') :
    (behind q).head? ≠ some '/' := by
  intro h
  obtain ⟨c, hc, hslashed⟩ := Option.map_eq_some_iff.1 (List.head?_map .. ▸ h)
  have hq : q.head? = some c := Text.head?_of_trimEnd q hc
  unfold slash at hslashed
  split at hslashed
  · next hbackslash => exact hback (hbackslash ▸ hq)
  · exact hslash (hslashed ▸ hq)

/-- **What stands behind a slash matters by its segments only**, and these only by what is kept of them
behind others. -/
theorem normalizeChars_congr (p : List Char) {q r : List Char} (hq : (behind q).head? ≠ some '/')
    (hr : (behind r).head? ≠ some '/')
    (h : ∀ ss, resolve (ss ++ segments (behind q)) = resolve (ss ++ segments (behind r))) :
    normalizeChars (p ++ '/' :: q) = normalizeChars (p ++ '/' :: r) := by
  rw [normalizeChars_eq, normalizeChars_eq, parts, parts, prepared_append_cons, prepared_append_cons]
  rcases dropScheme_append_cons ((trimStart p).map slash) with ⟨a, ha⟩ | hall
  · rw [ha _ hq, ha _ hr, segments_append_cons, segments_append_cons, h]
  · rw [hall _ hq, hall _ hr]
    exact congrArg join (h [])

/-! ### Detours -/

/-- A path that begins with no slash. -/
def Relative (q : String) : Prop := q.toList.head? ≠ some '/' ∧ q.toList.head? ≠ some '\\'

/-- One path is a longer or another way to write the other: it stays where it is, or goes into a segment
and back, or turns a slash round. -/
inductive Respells : String → String → Prop
  | stay (p q : String) (hq : Relative q) : Respells (p ++ "/./" ++ q) (p ++ "/" ++ q)
  | back (p s q : String) (hs : Plain s.toList) (hq : Relative q) :
    Respells (p ++ "/" ++ s ++ "/../" ++ q) (p ++ "/" ++ q)
  | turn (p q : String) : Respells (p ++ "\\" ++ q) (p ++ "/" ++ q)

lemma normalizeChars_stay (p : List Char) {q : List Char} (hslash : q.head? ≠ some '/')
    (hback : q.head? ≠ some '\\') :
    normalizeChars (p ++ '/' :: '.' :: '/' :: q) = normalizeChars (p ++ '/' :: q) := by
  have hbehind : behind ('.' :: '/' :: q) = ['.'] ++ '/' :: behind q := by
    unfold behind
    rw [← List.singleton_append, Text.trimEnd_append_cons _ _ (by rfl)]
    rfl
  refine normalizeChars_congr p (by simp [hbehind]) (head?_behind hslash hback) fun ss => ?_
  rw [hbehind, segments_append_cons]
  exact resolve_dot ss _

lemma normalizeChars_back (p : List Char) {s q : List Char} (hs : Plain s) (hslash : q.head? ≠ some '/')
    (hback : q.head? ≠ some '\\') :
    normalizeChars (p ++ '/' :: (s ++ '/' :: '.' :: '.' :: '/' :: q)) =
      normalizeChars (p ++ '/' :: q) := by
  have hsame : s.map slash = s := by
    refine (List.map_congr_left fun c hc => if_neg ?_).trans (List.map_id s)
    exact ne_of_mem_of_not_mem hc hs.no_backslash
  have hbehind : behind (s ++ '/' :: '.' :: '.' :: '/' :: q) =
      s ++ '/' :: (['.', '.'] ++ '/' :: behind q) := by
    unfold behind
    rw [Text.trimEnd_append_cons _ _ (by rfl), show '.' :: '.' :: '/' :: q = ['.', '.'] ++ '/' :: q from rfl,
      Text.trimEnd_append_cons _ _ (by rfl), List.map_append, hsame]
    rfl
  have hhead : (s ++ '/' :: (['.', '.'] ++ '/' :: behind q)).head? ≠ some '/' := by
    rw [List.head?_append_of_ne_nil _ hs.ne_nil]
    exact fun h => hs.no_slash (List.mem_of_head? h)
  refine normalizeChars_congr p (hbehind ▸ hhead) (head?_behind hslash hback) fun ss => ?_
  rw [hbehind, segments_append_slash hs.no_slash, segments_append_cons]
  exact resolve_back ss _ hs

/-- **One step** from one spelling to another. -/
lemma Respells.normalize_eq {p q : String} (h : Respells p q) : normalize p = normalize q := by
  refine congrArg String.ofList ?_
  cases h with
  | stay p q hq => simpa using normalizeChars_stay p.toList hq.1 hq.2
  | back p s q hs hq => simpa using normalizeChars_back p.toList hs hq.1 hq.2
  | turn p q =>
    rw [← normalizeChars_map_slash, ← normalizeChars_map_slash (p ++ "/" ++ q).toList]
    refine congrArg normalizeChars ?_
    simp [slash]

/-- **All spellings of a path have one normal form**, and so name one entry of the cache: detours through
`.`, and into a segment and back, may be put in or left out and slashes turned round, any number of them,
one inside another and wherever there is a slash. -/
theorem normalize_eq_of_respelled {p q : String} (h : Relation.EqvGen Respells p q) :
    normalize p = normalize q ∧ ∀ s : Session, s.cached? p = s.cached? q := by
  have hsame : normalize p = normalize q := by
    induction h with
    | rel p q hstep => exact hstep.normalize_eq
    | refl p => rfl
    | symm p q _ ih => exact ih.symm
    | trans p q r _ _ ihpq ihqr => exact ihpq.trans ihqr
  refine ⟨hsame, fun s => ?_⟩
  unfold Session.cached?
  rw [hsame]

/-- A detour inside a detour, behind a scheme, with slashes of both kinds. -/
theorem normalize_eq_of_respelled_nested :
    Relation.EqvGen Respells " local://lib\\x/./y z/../../common" " local://lib/common" ∧
      normalize " local://lib\\x/./y z/../../common" = normalize " local://lib/common" ∧
      ∀ s : Session, s.cached? " local://lib\\x/./y z/../../common" = s.cached? " local://lib/common" := by
  have hturn : Respells " local://lib\\x/./y z/../../common" " local://lib/x/./y z/../../common" := by
    simpa using Respells.turn " local://lib" "x/./y z/../../common"
  have hstay : Respells " local://lib/x/./y z/../../common" " local://lib/x/y z/../../common" := by
    simpa using Respells.stay " local://lib/x" "y z/../../common" ⟨by decide, by decide⟩
  have hinner : Respells " local://lib/x/y z/../../common" " local://lib/x/../common" := by
    simpa using Respells.back " local://lib/x" "y z" "../common"
      ⟨by decide, by decide, by decide, by decide, by decide⟩ ⟨by decide, by decide⟩
  have houter : Respells " local://lib/x/../common" " local://lib/common" := by
    simpa using Respells.back " local://lib" "x" "common"
      ⟨by decide, by decide, by decide, by decide, by decide⟩ ⟨by decide, by decide⟩
  have h : Relation.EqvGen Respells " local://lib\\x/./y z/../../common" " local://lib/common" :=
    .trans _ _ _ (.rel _ _ hturn) (.trans _ _ _ (.rel _ _ hstay)
      (.trans _ _ _ (.rel _ _ hinner) (.rel _ _ houter)))
  exact ⟨h, normalize_eq_of_respelled h⟩

/-! ### Lengths -/

lemma length_join {ss : List (List Char)} (h : ss ≠ []) :
    (join ss).length + 1 = ss.flatten.length + ss.length := by
  induction ss with
  | nil => exact absurd rfl h
  | cons s ss ih =>
    by_cases hlast : ss = []
    · simp [hlast, join]
    · have hrest := ih hlast
      rw [join_cons hlast, List.length_append, List.length_cons, List.flatten_cons, List.length_append,
        List.length_cons]
      omega

/-- What is kept is no longer than what was there. -/
lemma length_foldl_keep_le (ss kept : List (List Char)) :
    (ss.foldl keep kept).flatten.length + (ss.foldl keep kept).length ≤
      kept.flatten.length + kept.length + (ss.flatten.length + ss.length) := by
  induction ss generalizing kept with
  | nil => simp
  | cons s ss ih =>
    have hkeep : (keep kept s).flatten.length + (keep kept s).length ≤
        kept.flatten.length + kept.length + (s.length + 1) := by
      unfold keep
      split
      · omega
      · omega
      · cases kept with
        | nil => simp
        | cons k kept =>
          simp only [List.tail_cons, List.flatten_cons, List.length_append, List.length_cons]
          omega
      · simp only [List.flatten_cons, List.length_append, List.length_cons]
        omega
    have hrest := ih (keep kept s)
    rw [List.foldl_cons, List.flatten_cons, List.length_append, List.length_cons]
    omega

/-- **No normal form is longer than its path**, even without the blanks around it. -/
theorem length_normalizeChars_le (cs : List Char) : (normalizeChars cs).length ≤ (trim cs).length := by
  have hprepared : (prepared cs).length ≤ (trim cs).length := by
    unfold prepared dropScheme
    split
    · simp
    · simp
  have hsegments := length_join (segments_ne_nil (prepared cs))
  rw [join_segments] at hsegments
  have hkept := length_foldl_keep_le (segments (prepared cs)) []
  rw [normalizeChars_eq]
  by_cases hnone : parts cs = []
  · simp [hnone, join]
  · have hparts := length_join hnone
    rw [parts, resolve, (List.reverse_perm _).flatten.length_eq, List.length_reverse] at hparts
    simp only [List.flatten_nil, List.length_nil] at hkept
    unfold parts resolve
    omega

/-! ### Normal forms again -/

/-- Neither end is blank. -/
def Unpadded (cs : List Char) : Prop :=
  (∀ c ∈ cs.head?, isBlank c = false) ∧ ∀ c ∈ cs.getLast?, isBlank c = false

lemma resolve_of_plain {ss : List (List Char)} (h : ∀ s ∈ ss, Plain s) : resolve ss = ss := by
  have main : ∀ kept, ss.foldl keep kept = ss.reverse ++ kept := by
    induction ss with
    | nil =>
      intro kept
      rfl
    | cons s ss ih =>
      obtain ⟨hs, hss⟩ := List.forall_mem_cons.1 h
      intro kept
      rw [List.foldl_cons, keep_of_plain hs, ih hss, List.reverse_cons, List.append_assoc]
      rfl
  rw [resolve, main, List.append_nil, List.reverse_reverse]

/-- A segment of a path, with what stands before it and behind it. -/
lemma join_append_cons (ss : List (List Char)) (s : List Char) (ts : List (List Char)) :
    join (ss ++ s :: ts) = ss.flatMap (· ++ ['/']) ++ (s ++ ts.flatMap ('/' :: ·)) := by
  induction ss with
  | nil =>
    induction ts generalizing s with
    | nil => simp [join]
    | cons t ts ih =>
      rw [List.nil_append, join_cons (by simp), ← List.nil_append (t :: ts), ih t]
      simp
  | cons r ss ih =>
    rw [List.cons_append, join_cons (by simp), ih]
    simp

lemma backslash_not_mem_join {ss : List (List Char)} (h : ∀ s ∈ ss, Plain s) : '\\' ∉ join ss := by
  induction ss with
  | nil => simp [join]
  | cons s ss ih =>
    obtain ⟨hs, hss⟩ := List.forall_mem_cons.1 h
    by_cases hlast : ss = []
    · rw [hlast]
      exact hs.no_backslash
    · rw [join_cons hlast, List.mem_append, List.mem_cons]
      rintro (hmem | hmem | hmem)
      · exact hs.no_backslash hmem
      · cases hmem
      · exact ih hss hmem

/-- Plain segments hold no scheme: it would have an empty segment between its two slashes. -/
lemma dropScheme_join {ss : List (List Char)} (h : ∀ s ∈ ss, Plain s) : dropScheme (join ss) = join ss := by
  refine if_neg fun htake => ?_
  obtain ⟨rest, hrest⟩ : scheme <+: join ss := htake ▸ List.take_prefix _ _
  have hne : ss ≠ [] := by
    rintro rfl
    cases hrest
  have hsegments := segments_join hne fun s hs => (h s hs).no_slash
  have hempty : [] ∈ segments (join ss) := by
    have hscheme : scheme ++ rest = ['l', 'o', 'c', 'a', 'l', ':'] ++ '/' :: ([] ++ '/' :: rest) := rfl
    rw [← hrest, hscheme, segments_append_cons, segments_append_cons]
    simp [segments]
  rw [hsegments] at hempty
  exact (h [] hempty).ne_nil rfl

/-- **Plain segments joined are a normal form of their own**, if no blank stands at an end. -/
lemma normalizeChars_join {ss : List (List Char)} (h : ∀ s ∈ ss, Plain s) (hends : Unpadded (join ss)) :
    normalizeChars (join ss) = join ss := by
  have hslashes : (join ss).map slash = join ss := by
    refine (List.map_congr_left fun c hc => if_neg ?_).trans (List.map_id _)
    exact ne_of_mem_of_not_mem hc (backslash_not_mem_join h)
  unfold normalizeChars
  rw [(Text.trim_eq_self_iff _).2 hends, hslashes, dropScheme_join h]
  by_cases hnone : ss = []
  · rw [hnone]
    rfl
  · rw [segments_join hnone fun s hs => (h s hs).no_slash, resolve_of_plain h]

/-- A normal form is its own exactly when no blank stands at an end: otherwise it gets shorter. -/
lemma normalizeChars_normalizeChars_iff (cs : List Char) :
    normalizeChars (normalizeChars cs) = normalizeChars cs ↔ Unpadded (normalizeChars cs) := by
  constructor
  · intro h
    have hpart := Text.trim_isInfix (normalizeChars cs)
    have hlength := length_normalizeChars_le (normalizeChars cs)
    rw [h] at hlength
    exact (Text.trim_eq_self_iff _).1 (hpart.eq_of_length_le hlength)
  · intro h
    rw [normalizeChars_eq cs] at h ⊢
    exact normalizeChars_join (plain_parts cs) h

/-! ### Blanks beside slashes -/

/-- The two characters may stand side by side: neither is a slash beside which the other is a blank. -/
def Fits (c d : Char) : Prop :=
  (slash c = '/' → isBlank d = false) ∧ (slash d = '/' → isBlank c = false)

instance : DecidableRel Fits := fun _ _ => inferInstanceAs (Decidable (_ ∧ _))

/-- No blank stands beside a slash. -/
def Tight (cs : List Char) : Prop := cs.IsChain Fits

instance (cs : List Char) : Decidable (Tight cs) := inferInstanceAs (Decidable (cs.IsChain Fits))

lemma Tight.prepare {cs : List Char} (h : Tight cs) : Tight ((trim cs).map slash) := by
  have htrim : (trim cs).IsChain Fits := List.IsChain.infix h (Text.trim_isInfix cs)
  refine List.isChain_map_of_isChain slash (fun c d hfits => ?_) htrim
  unfold Fits
  rw [slash_slash, slash_slash, isBlank_slash, isBlank_slash]
  exact hfits

lemma unpadded_trim_map (cs : List Char) : Unpadded ((trim cs).map slash) := by
  rw [← trim_map_slash]
  exact (Text.trim_eq_self_iff _).1 (Text.trim_trim _)

/-- Before a segment there is a slash or nothing, and so behind it. -/
lemma exists_around {cs s : List Char} (h : s ∈ segments cs) : ∃ a b, cs = a ++ (s ++ b) ∧
    (∀ c ∈ a.getLast?, c = '/') ∧ ∀ c ∈ b.head?, c = '/' := by
  obtain ⟨ss, ts, hsegments⟩ := List.append_of_mem h
  refine ⟨_, _, by rw [← join_append_cons, ← hsegments, join_segments], ?_, ?_⟩
  · rcases List.eq_nil_or_concat ss with rfl | ⟨ss, r, rfl⟩ <;> simp
  · cases ts <;> simp

/-- The scheme, if there was one, ends with a slash too. -/
lemma exists_around_prepared {cs s : List Char} (h : s ∈ segments (prepared cs)) :
    ∃ a b, (trim cs).map slash = a ++ (s ++ b) ∧ (∀ c ∈ a.getLast?, c = '/') ∧ ∀ c ∈ b.head?, c = '/' := by
  obtain ⟨a, b, hprepared, ha, hb⟩ := exists_around h
  unfold prepared dropScheme at hprepared
  split at hprepared
  · next hscheme =>
    refine ⟨scheme ++ a, b, ?_, ?_, hb⟩
    · rw [← List.take_append_drop scheme.length ((trim cs).map slash), hscheme, hprepared,
        List.append_assoc]
    · intro c hc
      rw [List.getLast?_append, Option.mem_def, Option.or_eq_some_iff] at hc
      rcases hc with hc | ⟨-, hc⟩
      · exact ha c hc
      · exact (Option.some.inj hc).symm
  · exact ⟨a, b, hprepared, ha, hb⟩

/-- **Segments of a path without blanks beside slashes** have no blank at an end. -/
lemma Tight.unpadded {cs s : List Char} (h : Tight cs) (hs : s ∈ segments (prepared cs)) :
    Unpadded s := by
  obtain ⟨a, b, htext, ha, hb⟩ := exists_around_prepared hs
  have hchain := h.prepare
  have hends := unpadded_trim_map cs
  rw [htext] at hchain hends
  constructor
  · intro c hc
    obtain ⟨s', rfl⟩ := List.head?_eq_some_iff.1 hc
    cases hlast : a.getLast? with
    | none =>
      rw [List.getLast?_eq_none_iff.1 hlast] at hends
      exact hends.1 c rfl
    | some d =>
      obtain rfl := ha d hlast
      exact ((List.isChain_append.1 hchain).2.2 '/' hlast c rfl).1 rfl
  · intro c hc
    cases hfirst : b.head? with
    | none =>
      rw [List.head?_eq_none_iff.1 hfirst, List.append_nil] at hends
      exact hends.2 c (by rw [List.getLast?_append, hc]; rfl)
    | some d =>
      obtain rfl := hb d hfirst
      exact ((List.isChain_append.1 (List.isChain_append.1 hchain).2.1).2.2 c hc '/' hfirst).2 rfl

/-- What is kept was there. -/
lemma mem_foldl_keep {ss kept : List (List Char)} {s : List Char} (h : s ∈ ss.foldl keep kept) :
    s ∈ kept ∨ s ∈ ss := by
  induction ss generalizing kept with
  | nil => exact .inl h
  | cons r ss ih =>
    rcases ih h with hmem | hmem
    · unfold keep at hmem
      split at hmem
      · exact .inl hmem
      · exact .inl hmem
      · exact .inl (List.mem_of_mem_tail hmem)
      · rcases List.mem_cons.1 hmem with rfl | hmem
        · exact .inr List.mem_cons_self
        · exact .inl hmem
    · exact .inr (List.mem_cons_of_mem _ hmem)

lemma mem_of_mem_parts {cs s : List Char} (h : s ∈ parts cs) : s ∈ segments (prepared cs) :=
  (mem_foldl_keep (List.mem_reverse.1 h)).resolve_left List.not_mem_nil

/-- Segments joined have no blank at an end, if the segments have none. -/
lemma unpadded_join {ss : List (List Char)} (hplain : ∀ s ∈ ss, Plain s) (h : ∀ s ∈ ss, Unpadded s) :
    Unpadded (join ss) := by
  constructor
  · cases ss with
    | nil => simp [join]
    | cons s ss =>
      obtain ⟨hs, -⟩ := List.forall_mem_cons.1 hplain
      have hjoin := join_append_cons [] s ss
      rw [List.nil_append, List.flatMap_nil, List.nil_append] at hjoin
      rw [hjoin, List.head?_append_of_ne_nil _ hs.ne_nil]
      exact (h s List.mem_cons_self).1
  · rcases List.eq_nil_or_concat' ss with rfl | ⟨ss, s, rfl⟩
    · simp [join]
    · have hs : s ∈ ss ++ [s] := by simp
      rw [join_append_cons, List.flatMap_nil, List.append_nil,
        List.getLast?_append_of_ne_nil _ (hplain s hs).ne_nil]
      exact (h s hs).2

/-- **When a normal form is its own.**  It is exactly when neither its first nor its last character is
blank; and this is so whenever no blank stands beside a slash of the path. -/
theorem normalize_normalize_iff (path : String) :
    (normalize (normalize path) = normalize path ↔ Unpadded (normalize path).toList) ∧
      (Tight path.toList → normalize (normalize path) = normalize path) := by
  have hchars : (normalize path).toList = normalizeChars path.toList := String.toList_ofList
  have hexact : normalize (normalize path) = normalize path ↔ Unpadded (normalize path).toList := by
    rw [hchars, ← normalizeChars_normalizeChars_iff, ← hchars, ← String.ofList_inj, String.ofList_toList]
    rfl
  refine ⟨hexact, fun htight => hexact.2 ?_⟩
  rw [hchars, normalizeChars_eq]
  exact unpadded_join (plain_parts _) fun s hs => htight.unpadded (mem_of_mem_parts hs)

/-- Blanks inside a segment, and around the whole path, do no harm. -/
theorem normalize_normalize_inside : Tight " local://a b\\..\\c d ".toList ∧
    normalize (normalize " local://a b\\..\\c d ") = normalize " local://a b\\..\\c d " := by
  have htight : Tight " local://a b\\..\\c d ".toList := by decide +kernel
  exact ⟨htight, (normalize_normalize_iff _).2 htight⟩

/-- A blank comes to the front when the slash before it is left out. -/
theorem normalize_normalize_slash_blank : normalize (normalize "/ a") ≠ normalize "/ a" := by
  decide +kernel

end Path

end Shading
