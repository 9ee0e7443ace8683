import Emission.Proofs.Capacity
import Emission.Proofs.Contents

/-!
# Layout

A configuration lays a run out: it says at which depth the run starts, how far a step goes, what is
written for a unit of depth and whether lines end. What is written so stands between the texts and the
labels of the run and has no part in them, nor in what is numbered.

* `Text.without` takes characters out of a text. When those are taken out that the layout writes, an
  output has the text that its contents have (`Scrap.without_text_output`).
* `Program.run_layout`: runs that are laid out differently agree in their contents, their names and
  what they note of these, and a run without layout writes its contents.
-/

namespace Emission

/-! ## 1. Texts without some characters -/

namespace Text

/-- The text without the characters in `W`. -/
def without (W : Char → Bool) (s : String) : String :=
  String.ofList (s.toList.filter fun c => !W c)

theorem without_append (W : Char → Bool) (s t : String) :
    without W (s ++ t) = without W s ++ without W t := by
  simp only [without, String.toList_append, List.filter_append, String.ofList_append]

theorem without_eq_empty {W : Char → Bool} {s : String} (h : ∀ c ∈ s.toList, W c = true) :
    without W s = "" := by
  have hnone : s.toList.filter (fun c => !W c) = [] := by
    rw [List.filter_eq_nil_iff]
    intro c hc
    rw [h c hc]
    exact Bool.false_ne_true
  rw [without, hnone, String.ofList_nil]

theorem without_copies {W : Char → Bool} {unit : String} (h : ∀ c ∈ unit.toList, W c = true)
    (n : Nat) : without W (copies unit n) = "" := by
  induction n with
  | zero => rfl
  | succ n ih => rw [copies_succ, without_append, ih, without_eq_empty h, String.append_empty]

/-- Nothing is taken out. -/
theorem without_none (s : String) : without (fun _ => false) s = s := by
  have hall : s.toList.filter (fun _ => !false) = s.toList := List.filter_true s.toList
  rw [without, hall, String.ofList_toList]

end Text

/-! ## 2. Outputs without layout -/

/-- All characters that the configuration lays a run out with are in `W`. -/
structure Config.LaysOutIn (W : Char → Bool) (c : Config) : Prop where
  unit : ∀ ch ∈ c.indentUnit.toList, W ch = true
  newline : c.newlines = true → W '\n' = true

section

variable {config : Config} {W : Char → Bool} (h : config.LaysOutIn W) (vars : List Var)

include h

/-- **Layout can be taken out of a scrap**, and then its content is left. -/
theorem Scrap.without_words (s : Scrap) :
    Text.without W (s.words config vars) =
      Text.without W
        ((s.content? fun v => config.naming.spelling v (vars.idxOf v)).getD "") := by
  cases s with
  | text | label => rfl
  | indentation around => exact Text.without_copies h.unit _
  | newline =>
    rw [Scrap.words]
    split
    · rename_i hn
      refine Text.without_eq_empty fun c hc => ?_
      cases List.mem_singleton.mp hc
      exact h.newline hn
    · rfl

/-- **Layout can be taken out of an output**, and then its contents are left. -/
theorem Scrap.without_text_output (ss : List Scrap) :
    Text.without W (Scrap.output config vars ss).text =
      Text.without W
        (Scrap.contents (fun v => config.naming.spelling v (vars.idxOf v)) ss) := by
  rw [Scrap.text_output, Scrap.contents]
  induction ss with
  | nil => rfl
  | cons s ss ih =>
    rw [List.map_cons, String.join_cons, Text.without_append, Scrap.without_words h, ih]
    cases hs : s.content? fun v => config.naming.spelling v (vars.idxOf v) with
    | none =>
      rw [List.filterMap_cons_none hs, Option.getD_none,
        Text.without_eq_empty (List.forall_mem_nil _), String.empty_append]
    | some t =>
      rw [List.filterMap_cons_some hs, Option.getD_some, String.join_cons, Text.without_append]

end

/-! ## 3. Entries without layout -/

/-- The answer without what the layout has a part in: widths and settings of the layout, and the
    characters in `W`. -/
def Answer.bare (W : Char → Bool) : Answer → Answer
  | text s => .text (Text.without W s)
  | width _ => .width 0
  | config c =>
    .config { c with indentLevel := 0, indentStep := 0, indentUnit := "", newlines := false }
  | capture entries s _ => .capture entries (Text.without W s) 0
  | answer => answer

/-- The entry without what the layout has a part in. -/
def Entry.bare (W : Char → Bool) (e : Entry) : Entry :=
  { e with bytes := 0, pieces := 0, level := 0, answer := e.answer.bare W }

section

variable {config config' : Config} (hnaming : config'.naming = config.naming)

include hnaming

/-- Two layouts, taken out of one output, leave the same text. -/
theorem Scrap.without_text_output_eq {W : Char → Bool} (h : config.LaysOutIn W)
    (h' : config'.LaysOutIn W) (vars : List Var) (ss : List Scrap) :
    Text.without W (Scrap.output config' vars ss).text =
      Text.without W (Scrap.output config vars ss).text := by
  rw [Scrap.without_text_output h', Scrap.without_text_output h, hnaming]

theorem Scrap.words_label (vars : List Var) (v : Var) :
    Scrap.words config' vars (.label v) = Scrap.words config vars (.label v) := by
  rw [Scrap.words, Scrap.words, hnaming]

/-- **Layout can be taken out of an entry.** -/
theorem Mark.bare_entry (hheader : config'.header = config.header) {W : Char → Bool}
    (h : config.LaysOutIn W) (h' : config'.LaysOutIn W) (vars : List Var) (mark : Mark) :
    (mark.entry config' vars).bare W = (mark.entry config vars).bare W := by
  have htext := Scrap.without_text_output_eq hnaming h h' vars
  have hanswer : (mark.answer config' vars).bare W = (mark.answer config vars).bare W := by
    obtain ⟨moment, around, output, lookedUp, earlier, saying⟩ := mark
    cases saying with
    | label v => exact congrArg (Answer.bare W ∘ Answer.text) (Scrap.words_label hnaming vars v)
    | captured ss => exact congrArg (Answer.capture earlier · 0) (htext ss)
    | remark remark =>
      cases remark with
      | nothing | body | header | skipped | width => rfl
      | id? v =>
        exact congrArg
          (fun n : Naming => Answer.id? ((n.numbered lookedUp).eraseDups.idxOf? v)) hnaming
      | config => exact congrArg₂ (fun h n => Answer.config ⟨0, 0, "", false, h, n⟩) hheader hnaming
      | output => exact congrArg Answer.text (htext output)
  rw [Entry.bare, Entry.bare, Mark.entry, Mark.entry, hnaming, hanswer]

/-- **No layout has a part in the labels that are asked for.** -/
theorem Machine.Draws.answers_name {vars : List Var} {d : Draft} {m m' : Machine}
    (hm : m.Draws config vars d) (hm' : m'.Draws config' vars d)
    (hfits : ∀ mark ∈ d.marks, mark.Fits) : m'.book.answers .name = m.book.answers .name := by
  rw [hm'.answers, hm.answers]
  refine List.map_congr_left fun mark hmark => ?_
  obtain ⟨hmem, hmoment⟩ := List.mem_filter.mp hmark
  obtain ⟨v, hsaying⟩ := (hfits mark hmem).exists_label (of_decide_eq_true hmoment)
  rw [Mark.answer, Mark.answer, hsaying]
  exact congrArg Answer.text (Scrap.words_label hnaming vars v)

end

/-! ## 4. Runs -/

/-- The contents of a program are the same, whatever the layout. -/
theorem Program.contents_eq {config config' : Config} (hnaming : config'.naming = config.naming)
    (hheader : config'.header = config.header) (p : Program) :
    p.contents (p.label config') config'.header = p.contents (p.label config) config.header := by
  have hlabel : p.label config' = p.label config := by
    funext v
    rw [Program.label, Program.label, Program.lookedUp, Program.lookedUp, hnaming, hheader]
  rw [hlabel, hheader]

section

variable {config : Config} {p : Program} {m : Machine}

/-- **What the moves write and keep is the contents of the program**, when the layout is taken out. -/
theorem Program.without_run_moves {W : Char → Bool} (hW : config.LaysOutIn W)
    (h : Machine.run (p.moves config) (.start config) = .ok m) :
    let contents := p.contents (p.label config) config.header
    Text.without W m.context.output.text = Text.without W contents.text ∧
      ∀ key, Text.without W ((m.book.kept.get? key).getD .empty).text =
        Text.without W (contents.kept key) := by
  intro contents
  have hm := Program.draws_of_run_moves h
  have houtput : ∀ ss, Text.without W (Scrap.output config m.context.names.vars ss).text =
      Text.without W (Scrap.contents (p.label config) ss) := fun ss => by
    rw [Scrap.without_text_output hW, Program.vars_run_moves h]
    rfl
  have hdraft : (p.draft config).contents (p.label config) = contents :=
    Program.contents_draft config p
  constructor
  · rw [hm.output, houtput, ← hdraft]
    rfl
  · intro key
    rw [hm.kept, houtput, ← hdraft]
    rfl

/-- **Without layout the moves write the contents of the program**, and keep them. -/
theorem Program.contents_run_moves (hunit : config.indentUnit = "")
    (hnewlines : config.newlines = false)
    (h : Machine.run (p.moves config) (.start config) = .ok m) :
    let contents := p.contents (p.label config) config.header
    m.context.output.text = contents.text ∧
      ∀ key, ((m.book.kept.get? key).getD .empty).text = contents.kept key := by
  intro contents
  -- no character is written as layout, so that nothing has to be taken out
  have hlaid : config.LaysOutIn fun _ => false := by
    refine ⟨?_, fun hn => ?_⟩
    · rw [hunit]
      exact List.forall_mem_nil _
    · rw [hnewlines] at hn
      cases hn
  have hrun := Program.without_run_moves hlaid h
  simp only [Text.without_none] at hrun
  exact hrun

/-- **Without layout a run fails only for its contents**: they are too long, or there are too many
    variables in them. -/
theorem Program.exists_run_iff_contents (hunit : config.indentUnit = "")
    (hnewlines : config.newlines = false) :
    (∃ o, p.run config = .ok o) ↔
      p.Numberable config ∧
        (p.contents (p.label config) config.header).text.utf8ByteSize ≤ maxTextSize := by
  have hwide : ¬ p.TooWide config := by
    rintro ⟨_, -, hne, -⟩
    exact hne hunit
  rw [Program.exists_run_iff, and_iff_right hwide]
  refine and_congr_right fun hnum => ?_
  obtain ⟨m, hmoves⟩ := Program.exists_run_moves hnum hwide
  have htext := (Program.contents_run_moves hunit hnewlines hmoves).1
  rw [Program.TooLong, ← (Program.spells_run_moves hmoves).1, htext, Nat.not_lt]

end

/-- **Layout has no part in contents and names.** Two runs from configurations that differ in the
    layout only, and do not fail, end with the same names; they give the same answers where a label or
    a number is asked for; and if the characters that the two write as layout are taken out, perhaps
    with others, they have the same text, the same captured texts, and the same entries but for what
    is counted in bytes, pieces and depths. With an empty unit and lines that do not end, a run fails,
    whatever its depths, only where the contents of the program are too long for a text or have more
    variables than there are numbers; and its text is exactly these contents: the texts and the labels,
    and these are the labels that the run computes. -/
theorem Program.run_layout (config : Config) (p : Program) :
    (∀ (config' : Config) (o o' : Outcome Notebook), config'.naming = config.naming →
      config'.header = config.header → p.run config = .ok o → p.run config' = .ok o' →
        o'.names.entries = o.names.entries ∧
        o'.result.answers .name = o.result.answers .name ∧
        o'.result.answers .get = o.result.answers .get ∧
        ∀ W : Char → Bool, config.LaysOutIn W → config'.LaysOutIn W →
          Text.without W o'.text = Text.without W o.text ∧
          (∀ key, Text.without W ((o'.result.kept.get? key).getD .empty).text =
            Text.without W ((o.result.kept.get? key).getD .empty).text) ∧
          o'.result.trace.toList.map (Entry.bare W) = o.result.trace.toList.map (Entry.bare W)) ∧
    (config.indentUnit = "" → config.newlines = false → ∀ level step : Nat,
      let laidOut := { config with indentLevel := level, indentStep := step }
      let contents := p.contents (p.label config) config.header
      ((∃ o, p.run laidOut = .ok o) ↔
        p.Numberable config ∧ contents.text.utf8ByteSize ≤ maxTextSize) ∧
      ∀ o, p.run laidOut = .ok o → o.text = contents.text ∧
        (∀ key, ((o.result.kept.get? key).getD .empty).text = contents.kept key) ∧
        p.lookups laidOut = (p.lookedUp config).map fun v => ⟨v, p.label config v⟩) := by
  constructor
  · intro config' o o' hnaming hheader h h'
    have hvars : o'.names.vars = o.names.vars := by
      rw [Program.vars_names h, Program.vars_names h', Program.lookedUp, Program.lookedUp, hnaming,
        hheader]
    obtain ⟨m, hrun, rfl, hm⟩ := Program.exists_draws h
    obtain ⟨m', hrun', rfl, hm'⟩ := Program.exists_draws h'
    rw [hvars, Program.draft_eq hheader] at hm'
    have hfits := Program.fits_draft config p
    have hnumbered : ∀ vs, config'.naming.numbered vs = config.naming.numbered vs := fun _ => by
      rw [hnaming]
    refine ⟨?_, Machine.Draws.answers_name hnaming hm hm' hfits, hm.answers_get hm' hnumbered hfits,
      fun W hW hW' => ?_⟩
    · rw [NameTable.entries_eq_zipIdx, NameTable.entries_eq_zipIdx, hvars]
    obtain ⟨htext, hkept⟩ := Program.without_run_moves hW hrun
    obtain ⟨htext', hkept'⟩ := Program.without_run_moves hW' hrun'
    rw [Program.contents_eq hnaming hheader] at htext' hkept'
    refine ⟨htext'.trans htext.symm, fun key => (hkept' key).trans (hkept key).symm, ?_⟩
    · change m'.book.trace.toList.map (Entry.bare W) = m.book.trace.toList.map (Entry.bare W)
      rw [hm'.trace, hm.trace, List.map_map, List.map_map]
      exact List.map_congr_left fun mark _ =>
        Mark.bare_entry hnaming hheader hW hW' m.outcome.names.vars mark
  · intro hunit hnewlines level step laidOut contents
    have hunit' : laidOut.indentUnit = "" := hunit
    refine ⟨Program.exists_run_iff_contents hunit' hnewlines, fun o h => ?_⟩
    obtain ⟨m, hrun, rfl, -⟩ := Program.exists_draws h
    obtain ⟨htext, hkept⟩ := Program.contents_run_moves hunit' hnewlines hrun
    exact ⟨htext, hkept, Program.lookups_eq_map h⟩

/-- A line that is captured with a tab before it and written in a header, beside the same line without a
    newline and eight blanks in front. A tab that the program writes itself is taken out of both. -/
theorem Program.run_layout_tabs :
    let config := { Config.pretty with indentLevel := 1, indentUnit := "\t" }
    let config' := { Config.pretty with indentLevel := 8, newlines := false }
    let p : Program :=
      [.capture "k" [.within .line [.act (.var (.external "M" "f"))]],
        .within .further [.within .indent [.act (.emit .lent "a\tb"), .act (.name (.internal "f"))]],
        .header [.act (.splice "k")], .act (.get (.internal "f"))]
    let W : Char → Bool := fun c => c = '\n' ∨ c = '\t' ∨ c = ' '
    ∃ o o', p.run config = .ok o ∧ p.run config' = .ok o' ∧
      o.text = "\t\t\t\t\ta\tb\t_0/*M.f*/\n" ∧
      Text.without W o'.text = Text.without W o.text ∧
      o'.result.answers .name = o.result.answers .name := by
  intro config config' p W
  have hok' : (p.run config').isOk = true := by decide +kernel
  have htext : (p.run config).map Outcome.text = .ok "\t\t\t\t\ta\tb\t_0/*M.f*/\n" := by
    decide +kernel
  obtain ⟨o, h, htext⟩ := map_eq_ok_iff.mp htext
  obtain ⟨o', h'⟩ := exists_of_isOk hok'
  obtain ⟨-, hname, -, hlayout⟩ := (Program.run_layout config p).1 config' o o' rfl rfl h h'
  have hunit : config.indentUnit.toList.all W = true := by decide +kernel
  have hunit' : config'.indentUnit.toList.all W = true := by decide +kernel
  have hW : config.LaysOutIn W := ⟨List.all_eq_true.mp hunit, fun _ => rfl⟩
  have hW' : config'.LaysOutIn W := ⟨List.all_eq_true.mp hunit', fun _ => rfl⟩
  exact ⟨o, o', h, h', htext, (hlayout W hW hW').1, hname⟩

end Emission
