import Shading.Proofs.Include.Spellings
import Shading.Proofs.Kernel.ConstantOrder
import Shading.Proofs.Kernel.Negations
import Shading.Proofs.Kernel.Thinned

/-!
# Kernels line by line

Each item of a kernel is written on a line of its own: each declaration, each statement, and the
signature of each function with its braces.  No text in a program that was read has a line feed, so that
a kernel split at its line feeds has just these lines.

* `OneLine` — no line feed in a text;
* `Statement.Writes`, `Function.Writes`, `Compiler.Lays` — the lines of each item and of a kernel;
* `Compiler.exists_lays` — a kernel has these lines;
* `Expr.Parsed.oneLine`, `Compiler.Lays.oneLine` — none of them has a line feed;
* `Compiler.splits_of_parsed` — a kernel split at its line feeds.
-/

namespace Shading

open Grammar

/-! ### Texts on one line -/

/-- No line feed stands in the text. -/
def OneLine (text : String) : Prop := '\n' ∉ text.toList

instance (text : String) : Decidable (OneLine text) := inferInstanceAs (Decidable ('\n' ∉ text.toList))

@[simp]
lemma oneLine_append {a b : String} : OneLine (a ++ b) ↔ OneLine a ∧ OneLine b := by
  simp [OneLine]

lemma oneLine_intercalate {separator : String} {texts : List String} (hs : OneLine separator)
    (h : ∀ text ∈ texts, OneLine text) : OneLine (String.intercalate separator texts) := by
  induction texts with
  | nil => simp [OneLine]
  | cons text texts ih =>
    obtain ⟨htext, htexts⟩ := List.forall_mem_cons.1 h
    by_cases hlast : texts = []
    · simpa [hlast] using htext
    · rw [String.intercalate_cons_of_ne_nil hlast, oneLine_append, oneLine_append]
      exact ⟨⟨htext, hs⟩, ih htexts⟩

/-- **A text split at its line feeds** has the lines that it was put together from, and nothing behind
the last. -/
lemma Kernel.splitOn_text {lines : List String} (h : ∀ line ∈ lines, OneLine line) :
    (text lines).toList.splitOn '\n' = lines.map String.toList ++ [[]] := by
  induction lines with
  | nil => rfl
  | cons line lines ih =>
    obtain ⟨hline, hlines⟩ := List.forall_mem_cons.1 h
    have htext : (text (line :: lines)).toList = line.toList ++ '\n' :: (text lines).toList := by
      simp [text]
    rw [htext, List.splitOn, List.splitOnP_append_cons _ _ (by simp), ← List.splitOn, ← List.splitOn,
      List.splitOn_eq_singleton hline, ih hlines]
    rfl

/-! ### The lines of items -/

/-- The line that declares a uniform or a varying. -/
def Binding.Writes (keyword : String) (b : Binding) (line : String) : Prop :=
  ∃ type, b.primitive.glsl = .ok type ∧
    line = keyword ++ " " ++ Entry.qualifier b.primitive.qualifier? ++ type ++ " " ++ b.name ++ ";"

/-- The line of a statement in a block. -/
inductive Statement.Writes : Statement → String → Prop
  | comment (text : String) : Writes (.comment text) ("  // " ++ text)
  | assign {target : String} {value : Expr} {text : String} (h : value.glsl = .ok text) :
    Writes (.assign target value) ("  " ++ (target ++ " = " ++ text ++ ";"))
  | returns {value : Expr} {text : String} (h : value.glsl = .ok text) :
    Writes (.returns value) ("  " ++ ("return " ++ text ++ ";"))
  | expression {value : Expr} {text : String} (h : value.glsl = .ok text) :
    Writes (.expression value) ("  " ++ (text ++ ";"))
  | constant {declared : Constant} {line : String} (h : declared.line = .ok line) :
    Writes (.constant declared) ("  " ++ line)

/-- The line that a function begins with. -/
def Function.signature (f : Function) : Except Lowering.Cause String := do
  let parameters ← f.parameters.mapM Binding.glsl
  let returned ← f.returned.qualified
  return returned ++ " " ++ f.name ++ "(" ++ String.intercalate ", " parameters ++ ")"

/-- The lines of a function and the blank one behind it. -/
def Function.Writes (f : Function) (lines : List String) : Prop :=
  ∃ signature body, f.signature = .ok signature ∧ List.Forall₂ Statement.Writes f.body body ∧
    lines = signature :: "\x7b" :: (body ++ ["\x7d", ""])

/-- Whether a statement is written. -/
def Lowering.covers : Lowering → Statement → Bool
  | full, _ => true
  | comments, s => s.isComment

/-- **The lines of a kernel.**  There is one for each uniform, varying, constant and statement that is
written, and functions are written in full only. -/
def Compiler.Lays (c : Compiler) (shader : Shader) (stage : Stage) (lines : List String) : Prop :=
  ∃ uniforms varyings constants functions body,
    List.Forall₂ (Binding.Writes "uniform") shader.program.uniforms uniforms ∧
    List.Forall₂ (Binding.Writes "varying") shader.program.varyings varyings ∧
    List.Forall₂ (fun declared line => declared.line = .ok line) shader.program.constants constants ∧
    List.Forall₂ Function.Writes (if c.lowering = .full then shader.program.functions else []) functions ∧
    List.Forall₂ Statement.Writes (stage.body.filter c.lowering.covers) body ∧
    lines = ["// " ++ (stage.kind.title ++ " compiled from " ++ shader.path), "// " ++ signature, "",
      "#version " ++ c.version, ""] ++ uniforms ++ [""] ++ varyings ++ [""] ++ constants ++ [""] ++
      functions.flatten ++ ["void main()", "\x7b"] ++ body ++ ["\x7d"]

/-! ### A kernel has these lines -/

section

variable {T : Token → Prop} {keyword : String} {b : Binding} {s : Statement} {f : Function}
  {entry : Entry} {es : List Entry}

lemma Entry.indentation_one : Entry.indentation 1 = "  " := rfl

lemma Entry.allLines_line (text : String) : Entry.allLines 1 [.line text] = ["  " ++ text] := by
  simp [Entry.allLines, Entry.lines, Entry.indentation_one]

/-- The lines of a block and of what follows it. -/
lemma Entry.Balanced.allLines_block (h : Balanced es) (header : String) (rest : List Entry) :
    allLines 0 (.enter header :: (es ++ .leave :: rest)) =
      header :: "\x7b" :: (allLines 1 es ++ "\x7d" :: allLines 0 rest) := by
  simp only [allLines, depthAfter, h.allLines_append, lines]
  simp [indentation]

lemma Binding.writes_entry (h : b.entry keyword = .ok entry) :
    ∃ line, b.Writes keyword line ∧ entry.lines 0 = [line] ∧ entry.depthAfter 0 = 0 := by
  unfold Binding.entry at h
  obtain ⟨type, htype, h⟩ := bind_eq_ok_iff.1 h
  cases h
  exact ⟨_, ⟨type, htype, rfl⟩, by simp [Entry.lines, Entry.indentation], rfl⟩

lemma Binding.forall₂_allLines {bindings : List Binding}
    (h : bindings.mapM (Binding.entry keyword) = .ok es) :
    List.Forall₂ (Binding.Writes keyword) bindings (Entry.allLines 0 es) :=
  Entry.forall₂_allLines (fun _ _ => Binding.writes_entry) (mapM_eq_ok_iff.1 h)

/-- A statement that is read is one line. -/
lemma Statement.Parsed.exists_writes (h : s.Parsed T) (hes : s.fullEntries = .ok es) :
    ∃ line, s.Writes line ∧ Entry.allLines 1 es = [line] := by
  cases h with
  | comment =>
    cases hes
    exact ⟨_, .comment _, by simp [Entry.allLines, Entry.lines, Entry.indentation_one]⟩
  | assign =>
    obtain ⟨text, htext, hes⟩ := bind_eq_ok_iff.1 hes
    cases hes
    exact ⟨_, .assign htext, Entry.allLines_line _⟩
  | returns =>
    obtain ⟨text, htext, hes⟩ := bind_eq_ok_iff.1 hes
    cases hes
    exact ⟨_, .returns htext, Entry.allLines_line _⟩
  | expression =>
    obtain ⟨text, htext, hes⟩ := bind_eq_ok_iff.1 hes
    cases hes
    exact ⟨_, .expression htext, Entry.allLines_line _⟩
  | constant =>
    obtain ⟨entry, hentry, hes⟩ := bind_eq_ok_iff.1 hes
    cases hes
    obtain ⟨line, hline, hlines⟩ := Constant.lines_entry hentry 1
    exact ⟨_, .constant hline, by simp [Entry.allLines, hlines, Entry.indentation_one]⟩

/-- Where it is written, a statement is one line, and otherwise none. -/
lemma Statement.Parsed.writes_entries (h : s.Parsed T) {lowering : Lowering}
    (hes : s.entries lowering = .ok es) : Entry.Balanced es ∧
      List.Forall₂ Statement.Writes ([s].filter lowering.covers) (Entry.allLines 1 es) := by
  have hfull (hes : s.fullEntries = .ok es) : Entry.Balanced es ∧
      List.Forall₂ Statement.Writes [s] (Entry.allLines 1 es) := by
    obtain ⟨line, hline, hlines⟩ := h.exists_writes hes
    rw [hlines]
    exact ⟨Statement.balanced_fullEntries hes, .cons hline .nil⟩
  cases lowering with
  | full => exact hfull hes
  | comments =>
    cases s with
    | comment text => exact hfull hes
    | _ =>
      cases hes
      exact ⟨fun _ => rfl, .nil⟩

lemma Statement.writes_bodyEntries {body : List Statement} (h : ∀ s ∈ body, s.Parsed T)
    {lowering : Lowering} (hes : Statement.bodyEntries lowering body = .ok es) : Entry.Balanced es ∧
      List.Forall₂ Statement.Writes (body.filter lowering.covers) (Entry.allLines 1 es) := by
  obtain ⟨parts, hparts, hflatten⟩ := bind_eq_ok_iff.1 hes
  cases hflatten
  clear hes
  replace hparts := mapM_eq_ok_iff.1 hparts
  induction hparts with
  | nil => exact ⟨fun _ => rfl, .nil⟩
  | @cons s es body parts hs _ ih =>
    obtain ⟨hparsed, hbody⟩ := List.forall_mem_cons.1 h
    obtain ⟨hbalanced, hwrites⟩ := hparsed.writes_entries hs
    obtain ⟨hbalanced', hwrites'⟩ := ih hbody
    refine ⟨hbalanced.append hbalanced', ?_⟩
    rw [← List.singleton_append, List.filter_append, List.flatten_cons, hbalanced.allLines_append]
    exact List.rel_append hwrites hwrites'

lemma Function.Parsed.writes_entries (h : f.Parsed T) (hes : f.entries = .ok es) :
    Entry.Balanced es ∧ f.Writes (Entry.allLines 0 es) := by
  refine ⟨Function.balanced_entries hes, ?_⟩
  unfold Function.entries at hes
  obtain ⟨parameters, hparameters, hes⟩ := bind_eq_ok_iff.1 hes
  obtain ⟨returned, hreturned, hes⟩ := bind_eq_ok_iff.1 hes
  obtain ⟨body, hbody, hes⟩ := bind_eq_ok_iff.1 hes
  cases hes
  obtain ⟨hbalanced, hwrites⟩ := Statement.writes_bodyEntries h.body hbody
  have hall : f.body.filter Lowering.full.covers = f.body := List.filter_eq_self.2 fun _ _ => rfl
  rw [hall] at hwrites
  have hsignature : f.signature = .ok _ :=
    bind_eq_ok_iff.2 ⟨parameters, hparameters, bind_eq_ok_iff.2 ⟨returned, hreturned, rfl⟩⟩
  refine ⟨_, _, hsignature, hwrites, ?_⟩
  exact hbalanced.allLines_block _ [.blank]

end

namespace Compiler

variable {T : Token → Prop} {c : Compiler} {shader : Shader} {stage : Stage}

lemma writes_functionEntries {functions : List Function} {es : List Entry}
    (h : ∀ f ∈ functions, f.Parsed T) (hes : c.functionEntries functions = .ok es) :
    Entry.Balanced es ∧ ∃ lines, Entry.allLines 0 es = lines.flatten ∧
      List.Forall₂ Function.Writes (if c.lowering = .full then functions else []) lines := by
  unfold functionEntries at hes
  split at hes
  · next hfull =>
    rw [if_pos hfull]
    obtain ⟨parts, hparts, hflatten⟩ := bind_eq_ok_iff.1 hes
    cases hflatten
    clear hes
    replace hparts := mapM_eq_ok_iff.1 hparts
    induction hparts with
    | nil => exact ⟨fun _ => rfl, [], rfl, .nil⟩
    | @cons f es functions parts hf _ ih =>
      obtain ⟨hparsed, hfunctions⟩ := List.forall_mem_cons.1 h
      obtain ⟨hbalanced, hwrites⟩ := hparsed.writes_entries hf
      obtain ⟨hbalanced', lines, hlines, hwrites'⟩ := ih hfunctions
      refine ⟨hbalanced.append hbalanced', _ :: lines, ?_, .cons hwrites hwrites'⟩
      rw [List.flatten_cons, hbalanced.allLines_append, hlines, List.flatten_cons]
  · next hcomments =>
    cases hes
    rw [if_neg (by simp [hcomments])]
    exact ⟨fun _ => rfl, [], rfl, .nil⟩

lemma allLines_title : Entry.allLines 0 (c.title shader stage) =
    ["// " ++ (stage.kind.title ++ " compiled from " ++ shader.path), "// " ++ signature, "",
      "#version " ++ c.version, ""] := by
  simp [title, Entry.allLines, Entry.depthAfter, Entry.lines, Entry.indentation]

/-- **A kernel has a line for each item**, if its program could have been read. -/
theorem exists_lays {kernel : Kernel} (h : shader.program.Parsed T) (hs : stage ∈ shader.program.stages)
    (hkernel : c.kernel shader stage = .ok kernel) :
    ∃ lines, c.Lays shader stage lines ∧ kernel.source = Kernel.text lines := by
  obtain ⟨es, hes, hkernel⟩ := bind_eq_ok_iff.1 hkernel
  cases hkernel
  obtain ⟨uniforms, varyings, constants, functions, body, hu, hv, hc, hf, hb, rfl⟩ :=
    entries_eq_ok_iff.1 hes
  obtain ⟨hfbalanced, functionLines, hflines, hfwrites⟩ := writes_functionEntries h.functions hf
  obtain ⟨hbbalanced, hbwrites⟩ := Statement.writes_bodyEntries (h.stages stage hs).body hb
  refine ⟨_, ⟨_, _, _, functionLines, _, Binding.forall₂_allLines hu, Binding.forall₂_allLines hv,
    Constant.forall₂_allLines (mapM_eq_ok_iff.1 hc), hfwrites, hbwrites, rfl⟩, congrArg Kernel.text ?_⟩
  -- the lines of the parts before `main` are those of each part by itself
  have hbalanced : ∀ part ∈ [c.title shader stage, uniforms, [.blank], varyings, [.blank], constants,
      [.blank], functions], Entry.Balanced part := by
    have hblank : Entry.Balanced [.blank] := fun _ => rfl
    have hu := Entry.balanced_of_forall (forall_mem_of_mapM hu fun _ _ => Binding.depthAfter_entry)
    have hv := Entry.balanced_of_forall (forall_mem_of_mapM hv fun _ _ => Binding.depthAfter_entry)
    have hc := Entry.balanced_of_forall (forall_mem_of_mapM hc fun _ _ => Constant.depthAfter_entry)
    simp [hblank, hu, hv, hc, hfbalanced, balanced_title]
  have hlines := (Entry.Balanced.flatten hbalanced).allLines_append 0
    (.enter "void main()" :: (body ++ [.leave]))
  rw [Entry.allLines_flatten hbalanced, hbbalanced.allLines_block] at hlines
  rw [← hflines]
  simpa [allLines_title, Entry.allLines, Entry.lines] using hlines

end Compiler

/-! ### No line feed in them -/

/-- The token is spelled as what it is. -/
abbrev Token.IsSpelled (t : Token) : Prop := Spelled t.kind t.lexeme.toList

section

variable {text name : String}

lemma Rule.Occurs.exists_spelled {kind : Token.Kind} (h : Rule.Occurs Token.IsSpelled kind) :
    ∃ cs, Spelled kind cs := by
  obtain ⟨t, ht, rfl⟩ := h
  exact ⟨_, ht⟩

lemma Rule.Occurs.oneLine_identifier (h : Rule.Occurs Token.IsSpelled (.identifier name)) :
    OneLine name := by
  obtain ⟨cs, hcs⟩ := h.exists_spelled
  exact hcs.identifier.oneLine

lemma Rule.Occurs.oneLine_string (h : Rule.Occurs Token.IsSpelled (.string text)) : OneLine text := by
  obtain ⟨cs, hcs⟩ := h.exists_spelled
  exact hcs.not_mem_string.2

lemma Rule.Occurs.oneLine_comment (h : Rule.Occurs Token.IsSpelled (.comment text)) : OneLine text := by
  obtain ⟨cs, hcs⟩ := h.exists_spelled
  generalize hkind : Token.Kind.comment text = kind at hcs
  cases hcs with
  | @comment cs hline =>
    obtain rfl := Token.Kind.comment.inj hkind
    rw [OneLine, String.toList_ofList]
    exact fun hmem => hline ((Text.trim_isInfix cs).subset hmem)
  | @word c cs =>
    rcases wordKind_cases (String.ofList (c :: cs)) with hword | ⟨k, hword⟩ <;> rw [hword] at hkind <;>
      cases hkind
  | _ => cases hkind

lemma Primitive.Named.oneLine_glsl {p : Primitive} (h : p.Named) (hname : p.glsl = .ok name) :
    OneLine name := by
  obtain ⟨word, hword, hisName⟩ := h.exists_name
  unfold Primitive.glsl at hname
  rw [hword] at hname
  obtain rfl := Except.ok.inj hname
  exact (spelled_of_isName hisName).oneLine

lemma Primitive.oneLine_qualifier (p : Primitive) : OneLine (Entry.qualifier p.qualifier?) := by
  unfold Primitive.qualifier?
  cases p.precision with
  | none => decide
  | some precision => cases precision <;> decide

/-- What is written for a number that was read. -/
lemma Literal.oneLine_number {cs : List Char} {x : Double} {fractional : Bool}
    (h : Written cs x fractional) : OneLine (Literal.number x fractional).text := by
  cases hfinite : x.isFinite with
  | true => exact (Literal.written_text h hfinite).oneLine
  | false =>
    rw [Literal.text_of_not_finite h hfinite]
    split <;> decide

lemma Expr.oneLine_asOperand {e : Expr} (h : OneLine text) : OneLine (e.asOperand text) := by
  unfold Expr.asOperand
  split
  · simp +decide [h]
  · exact h

lemma Expr.oneLine_glslAll {es : List Expr} {texts : List String}
    (h : ∀ e ∈ es, ∀ text, e.glsl = .ok text → OneLine text) (htexts : glslAll es = .ok texts) :
    ∀ text ∈ texts, OneLine text := by
  induction es generalizing texts with
  | nil =>
    cases htexts
    simp
  | cons e es ih =>
    obtain ⟨he, hes⟩ := List.forall_mem_cons.1 h
    obtain ⟨text, htext, htexts⟩ := bind_eq_ok_iff.1 htexts
    obtain ⟨later, hlater, htexts⟩ := bind_eq_ok_iff.1 htexts
    cases htexts
    exact List.forall_mem_cons.2 ⟨he text htext, ih hes hlater⟩

/-- **What is written for an expression that was read has no line feed.** -/
theorem Expr.Parsed.oneLine {e : Expr} (h : e.Parsed Token.IsSpelled) :
    ∀ text, e.glsl = .ok text → OneLine text := by
  induction h with
  | number ht hkind =>
    rintro _ ⟨⟩
    rw [Token.IsSpelled, hkind] at ht
    obtain ⟨fractional, hwritten⟩ := ht.written
    rw [hwritten.contains_point]
    exact Literal.oneLine_number hwritten
  | string h =>
    rintro _ ⟨⟩
    simp +decide [Literal.text, h.oneLine_string]
  | symbol h =>
    rintro _ ⟨⟩
    exact h.oneLine_identifier
  | construct hp _ ih =>
    intro text htext
    obtain ⟨name, hname, htext⟩ := bind_eq_ok_iff.1 htext
    obtain ⟨inside, hinside, htext⟩ := bind_eq_ok_iff.1 htext
    cases htext
    rw [glsl_ofArguments] at hinside
    obtain ⟨texts, htexts, hinside⟩ := bind_eq_ok_iff.1 hinside
    cases hinside
    have harguments := oneLine_intercalate (show OneLine ", " by decide) (oneLine_glslAll ih htexts)
    simp +decide [hp.oneLine_glsl hname, harguments]
  | sample h _ ih =>
    intro text htext
    obtain ⟨value, hvalue, htext⟩ := bind_eq_ok_iff.1 htext
    cases htext
    simp +decide [h.oneLine_identifier, ih value hvalue]
  | @binary op _ _ _ _ ihl ihr =>
    intro text htext
    obtain ⟨ltext, hltext, htext⟩ := bind_eq_ok_iff.1 htext
    obtain ⟨rtext, hrtext, htext⟩ := bind_eq_ok_iff.1 htext
    cases htext
    have hop : OneLine op.text := by cases op <;> decide
    simp +decide [hop, oneLine_asOperand (ihl ltext hltext), oneLine_asOperand (ihr rtext hrtext)]
  | @unary op _ _ ih =>
    intro text htext
    obtain ⟨value, hvalue, htext⟩ := bind_eq_ok_iff.1 htext
    cases htext
    have hop : OneLine op.text := by cases op <;> decide
    simp [hop, oneLine_asOperand (ih value hvalue)]

variable {line : String}

lemma Binding.Parsed.oneLine {b : Binding} {keyword : String} (h : b.Parsed Token.IsSpelled)
    (hk : OneLine keyword) (hline : b.Writes keyword line) : OneLine line := by
  obtain ⟨type, htype, rfl⟩ := hline
  simp +decide [hk, Primitive.oneLine_qualifier, h.primitive.oneLine_glsl htype, h.name.oneLine_identifier]

lemma Constant.Parsed.oneLine {declared : Constant} (h : declared.Parsed Token.IsSpelled)
    (hline : declared.line = .ok line) : OneLine line := by
  obtain ⟨type, htype, hline⟩ := bind_eq_ok_iff.1 hline
  obtain ⟨value, hvalue, hline⟩ := bind_eq_ok_iff.1 hline
  cases hline
  simp +decide [Primitive.oneLine_qualifier, h.primitive.oneLine_glsl htype, h.name.oneLine_identifier,
    h.value.oneLine value hvalue]

lemma Statement.Parsed.oneLine {s : Statement} (h : s.Parsed Token.IsSpelled) (hline : s.Writes line) :
    OneLine line := by
  cases h with
  | comment h =>
    cases hline
    simp +decide [h.oneLine_comment]
  | returns h | expression h =>
    cases hline with
    | _ htext => simp +decide [h.oneLine _ htext]
  | assign ht h =>
    cases hline with
    | assign htext => simp +decide [ht.oneLine_identifier, h.oneLine _ htext]
  | constant h =>
    cases hline with
    | constant hline => simp +decide [h.oneLine hline]

lemma Primitive.Named.oneLine_qualified {p : Primitive} (h : p.Named) (htext : p.qualified = .ok text) :
    OneLine text := by
  obtain ⟨type, htype, htext⟩ := bind_eq_ok_iff.1 htext
  cases htext
  simp [Primitive.oneLine_qualifier, h.oneLine_glsl htype]

lemma Binding.Parsed.oneLine_glsl {b : Binding} (h : b.Parsed Token.IsSpelled) (htext : b.glsl = .ok text) :
    OneLine text := by
  obtain ⟨type, htype, htext⟩ := bind_eq_ok_iff.1 htext
  cases htext
  simp +decide [h.primitive.oneLine_qualified htype, h.name.oneLine_identifier]

lemma Function.Parsed.oneLine_signature {f : Function} (h : f.Parsed Token.IsSpelled)
    (htext : f.signature = .ok text) : OneLine text := by
  obtain ⟨parameters, hparameters, htext⟩ := bind_eq_ok_iff.1 htext
  obtain ⟨returned, hreturned, htext⟩ := bind_eq_ok_iff.1 htext
  cases htext
  have hlist := oneLine_intercalate (show OneLine ", " by decide)
    (forall_mem_of_forall₂ (mapM_eq_ok_iff.1 hparameters) fun b hb _ => (h.parameters b hb).oneLine_glsl)
  simp +decide [h.returned.oneLine_qualified hreturned, h.name.oneLine_identifier, hlist]

lemma Statement.oneLine_body {body : List Statement} {lines : List String}
    (h : ∀ s ∈ body, s.Parsed Token.IsSpelled) (hlines : List.Forall₂ Statement.Writes body lines) :
    ∀ line ∈ lines, OneLine line :=
  forall_mem_of_forall₂ hlines fun s hs _ => (h s hs).oneLine

lemma Function.Parsed.oneLine {f : Function} {lines : List String} (h : f.Parsed Token.IsSpelled)
    (hlines : f.Writes lines) : ∀ line ∈ lines, OneLine line := by
  obtain ⟨signature, body, hsignature, hbody, rfl⟩ := hlines
  have hbody := Statement.oneLine_body h.body hbody
  simp only [List.forall_mem_cons, List.forall_mem_append]
  exact ⟨h.oneLine_signature hsignature, by decide, hbody, by decide, by decide, by simp⟩

end

namespace Compiler

variable {c : Compiler} {shader : Shader} {stage : Stage} {lines : List String}

/-- **No line of a kernel has a line feed**, if neither the path nor the version has one. -/
theorem Lays.oneLine (h : c.Lays shader stage lines) (hp : shader.program.Parsed Token.IsSpelled)
    (hs : stage ∈ shader.program.stages) (hpath : OneLine shader.path) (hversion : OneLine c.version) :
    ∀ line ∈ lines, OneLine line := by
  obtain ⟨uniforms, varyings, constants, functions, body, hu, hv, hc, hf, hb, rfl⟩ := h
  have hu := forall_mem_of_forall₂ hu fun b hb _ => (hp.uniforms b hb).oneLine (by decide)
  have hv := forall_mem_of_forall₂ hv fun b hb _ => (hp.varyings b hb).oneLine (by decide)
  have hc := forall_mem_of_forall₂ hc fun d hd _ => (hp.constants d hd).oneLine
  have hf : ∀ lines ∈ functions, ∀ line ∈ lines, OneLine line := by
    refine forall_mem_of_forall₂ hf fun f hf _ => Function.Parsed.oneLine (hp.functions f ?_)
    split at hf
    · exact hf
    · cases hf
  have hb := Statement.oneLine_body
    (fun s hs' => (hp.stages stage hs).body s (List.mem_of_mem_filter hs')) hb
  have hblank : ∀ line ∈ [""], OneLine line := by decide
  have htitle : OneLine stage.kind.title := by cases stage.kind <;> decide
  simp only [List.append_assoc, List.forall_mem_append, List.forall_mem_flatten]
  refine ⟨?_, hu, hblank, hv, hblank, hc, hblank, hf, by decide, hb, by decide⟩
  simp +decide [htitle, hpath, hversion]

/-- The kernel of a stage, split at its line feeds, has the lines of its items and nothing behind the
last. -/
def Splits (c : Compiler) (shader : Shader) (stage : Stage) (kernel : Kernel) : Prop :=
  ∃ lines, c.Lays shader stage lines ∧
    kernel.source.toList.splitOn '\n' = lines.map String.toList ++ [[]]

/-- **Every kernel of a program that was read, line by line.** -/
theorem splits_of_parsed (h : shader.program.Parsed Token.IsSpelled) (hpath : OneLine shader.path)
    (hversion : OneLine c.version) : ∃ kernels, c.compile shader = .ok kernels ∧
      List.Forall₂ (c.Splits shader) shader.program.stages kernels := by
  obtain ⟨kernels, hkernels, -⟩ := c.compiles_of_parsed h
  refine ⟨kernels, hkernels, ?_⟩
  have hpairs := (List.forall₂_and_left _ _).2 ⟨fun _ hs => hs, mapM_eq_ok_iff.1 hkernels⟩
  refine hpairs.imp fun stage kernel hpair => ?_
  obtain ⟨hs, hkernel⟩ := hpair
  obtain ⟨lines, hlays, hsource⟩ := exists_lays h hs hkernel
  refine ⟨lines, hlays, ?_⟩
  rw [hsource, Kernel.splitOn_text (hlays.oneLine h hs hpath hversion)]

end Compiler

end Shading
