import Emission.Proofs.Depth
import Emission.Proofs.Lookups.Numbers
import Emission.Proofs.Machine.Frame
import Emission.Proofs.Machine.Notes
import Mathlib.Logic.Function.Basic

/-!
# Drafts

The draft of a run says what the run writes, keeps and notes, but not in which words: here stands a
text, here the label of this variable, here an indentation in these scopes, here a newline. A draft is
told by the program, and by nothing of the configuration but whether headers are written
(`Program.draft`, `Program.draft_eq`). The rest of the configuration and the numbers of the variables
put it into words (`Scrap.words`, `Scrap.output`, `Mark.entry`).

* `Machine.Draws` says that a machine is a draft put into words. What a move does to the machine, it
  does to the draft (`Move.draws_exec`).
* So a run that does not fail is its draft put into words, with the numbers it gives in the end
  (`Program.exists_draws`). Two runs with one draft can be compared word for word.
* The labels that a run computes are told by the program and those numbers too
  (`Program.lookups_eq_map`).
-/

namespace Emission

/-! ## 1. Drafts -/

/-- Something that an output is made of. -/
inductive Scrap where
  | text (s : String)
  /-- The label of a variable. -/
  | label (v : Var)
  /-- An indentation, in the bodies of some scopes. -/
  | indentation (around : List Scope)
  | newline
  deriving DecidableEq, Repr

/-- What an entry says. -/
inductive Saying where
  | remark (remark : Remark)
  /-- The label of a variable. -/
  | label (v : Var)
  /-- What a capture has captured. -/
  | captured (scraps : List Scrap)
  deriving DecidableEq, Repr

/-- An entry in the trace, not in words. -/
structure Mark where
  moment : Moment
  /-- The scopes in which it was made. -/
  around : List Scope
  /-- The output at the moment. -/
  output : List Scrap
  /-- The variables looked up until then. -/
  lookedUp : List Var
  /-- How many entries were made before. -/
  earlier : Nat
  saying : Saying
  deriving DecidableEq, Repr

/-- What a run has written, kept, looked up and noted. -/
structure Draft where
  output : List Scrap
  /-- The outputs to be put back, the innermost first. -/
  outers : List (List Scrap)
  /-- What is kept under each name; nothing, where nothing was captured. -/
  kept : String → List Scrap
  lookedUp : List Var
  marks : List Mark

namespace Draft

def blank : Draft := ⟨[], [], fun _ => [], [], []⟩

def write (scrap : Scrap) (d : Draft) : Draft :=
  { d with output := d.output ++ [scrap] }

def lookUp (v : Var) (d : Draft) : Draft :=
  { d with lookedUp := d.lookedUp ++ [v] }

/-- One more entry. -/
def mark (moment : Moment) (around : List Scope) (saying : Saying) (d : Draft) : Draft :=
  { d with
    marks := d.marks ++ [⟨moment, around, d.output, d.lookedUp, d.marks.length, saying⟩] }

/-- Begins a capture. -/
def setAside (d : Draft) : Draft :=
  { d with output := [], outers := d.output :: d.outers }

/-- Ends a capture. -/
def keep (key : String) (d : Draft) : Draft :=
  match d.outers with
  | [] => d
  | outer :: outers =>
    { d with output := outer, outers, kept := Function.update d.kept key d.output }

/-- Writes what is kept under `key`, and keeps it no longer. -/
def splice (key : String) (d : Draft) : Draft :=
  { d with output := d.output ++ d.kept key, kept := Function.update d.kept key [] }

/-- What a move does. -/
def move (d : Draft) (p : Placed) : Draft :=
  match p.move with
  | .write s => d.write (.text s)
  | .newline => d.write .newline
  | .indentation => d.write (.indentation p.around)
  | .label v => (d.lookUp v).write (.label v)
  | .name v => (d.lookUp v).mark (.done .name) p.around (.label v)
  | .splice key => d.splice key
  | .further | .level _ | .leave => d
  | .setAside => d.setAside
  | .keep key => (d.keep key).mark (.done .capture) p.around (.captured d.output)
  | .note moment remark => d.mark moment p.around (.remark remark)

theorem lookedUp_keep (key : String) (d : Draft) : (d.keep key).lookedUp = d.lookedUp := by
  unfold keep
  cases d.outers <;> rfl

theorem marks_keep (key : String) (d : Draft) : (d.keep key).marks = d.marks := by
  unfold keep
  cases d.outers <;> rfl

end Draft

/-- The draft of a program, run from a configuration. -/
def Program.draft (config : Config) (p : Program) : Draft :=
  (p.placed config).foldl Draft.move .blank

/-- **Of the configuration, a draft shows only whether headers are written.** -/
theorem Program.draft_eq {config config' : Config} (h : config.header = config'.header)
    (p : Program) : p.draft config = p.draft config' := by
  rw [Program.draft, Program.draft, Program.placed, Program.placed, h]

/-! ## 2. What a draft looks up, and what it says when -/

/-- A move looks up for the draft what it looks up. -/
theorem Draft.lookedUp_move (d : Draft) (p : Placed) :
    (d.move p).lookedUp = d.lookedUp ++ p.move.var?.toList := by
  obtain ⟨around, mv⟩ := p
  cases mv with
  | label | name => rfl
  | keep key => exact (d.lookedUp_keep key).trans (List.append_nil _).symm
  | write | newline | indentation | splice | further | level | leave | setAside | note =>
    exact (List.append_nil _).symm

theorem Draft.lookedUp_foldl (ps : List Placed) (d : Draft) :
    (ps.foldl Draft.move d).lookedUp = d.lookedUp ++ ps.filterMap (·.move.var?) := by
  induction ps generalizing d with
  | nil => exact (List.append_nil _).symm
  | cons p ps ih =>
    rw [List.foldl_cons, ih, Draft.lookedUp_move, List.append_assoc, List.filterMap_cons]
    cases p.move.var? <;> rfl

/-- **What is looked up in the draft is what the program looks up.** -/
theorem Program.lookedUp_draft (config : Config) (p : Program) :
    (p.draft config).lookedUp = p.lookedUp config := by
  rw [Program.draft, Draft.lookedUp_foldl, ← Program.filterMap_moves, ← Program.map_move_placed,
    List.filterMap_map]
  exact List.nil_append _

/-- What the mark says fits its moment. -/
def Mark.Fits (mark : Mark) : Prop :=
  match mark.saying with
  | .remark remark => remark.fits mark.moment = true
  | .label _ => mark.moment = .done .name
  | .captured _ => mark.moment = .done .capture

/-- **Where a label was asked for, there is a label.** -/
theorem Mark.Fits.exists_label {mark : Mark} (h : mark.Fits) (hname : mark.moment = .done .name) :
    ∃ v, mark.saying = .label v := by
  obtain ⟨moment, around, output, lookedUp, earlier, saying⟩ := mark
  cases hname
  cases saying with
  | label v => exact ⟨v, rfl⟩
  | captured => cases h
  | remark remark => cases remark <;> cases h

/-- **Where a number was asked for, there is a number**, or that there is none. -/
theorem Mark.Fits.exists_id? {mark : Mark} (h : mark.Fits) (hget : mark.moment = .done .get) :
    ∃ v, mark.saying = .remark (.id? v) := by
  obtain ⟨moment, around, output, lookedUp, earlier, saying⟩ := mark
  cases hget
  cases saying with
  | label | captured => cases h
  | remark remark =>
    cases remark with
    | id? v => exact ⟨v, rfl⟩
    | nothing | width | config | output | body | header | skipped => cases h

theorem Draft.fits_move {d : Draft} {p : Placed} (hp : p.move.fits = true)
    (hd : ∀ mark ∈ d.marks, mark.Fits) : ∀ mark ∈ (d.move p).marks, mark.Fits := by
  obtain ⟨around, mv⟩ := p
  cases mv with
  | write | newline | indentation | label | splice | further | level | leave | setAside => exact hd
  | name v => exact List.forall_mem_append.mpr ⟨hd, List.forall_mem_singleton.mpr rfl⟩
  | keep key =>
    rw [← d.marks_keep key] at hd
    exact List.forall_mem_append.mpr ⟨hd, List.forall_mem_singleton.mpr rfl⟩
  | note moment remark =>
    exact List.forall_mem_append.mpr ⟨hd, List.forall_mem_singleton.mpr hp⟩

theorem Program.fits_draft (config : Config) (p : Program) :
    ∀ mark ∈ (p.draft config).marks, mark.Fits := by
  have hstart : ∀ mark ∈ Draft.blank.marks, mark.Fits := List.forall_mem_nil _
  refine List.foldlRecOn (motive := fun d : Draft => ∀ mark ∈ d.marks, mark.Fits)
    (p.placed config) Draft.move hstart fun d hd place hplace => ?_
  refine Draft.fits_move ?_ hd
  refine Step.fits_movesAll config.header p place.move ?_
  rw [← Program.moves, ← Program.map_move_placed]
  exact List.mem_map_of_mem hplace

/-! ## 3. In words -/

section

variable (config : Config) (vars : List Var)

/-- The scrap in words, where the variables have their places in `vars` as their numbers. -/
def Scrap.words : Scrap → String
  | text s => s
  | label v => config.naming.spelling v (vars.idxOf v)
  | indentation around => Text.copies config.indentUnit (config.depthIn around)
  | newline => if config.newlines then "\n" else ""

/-- The output of some scraps. -/
def Scrap.output (scraps : List Scrap) : Output :=
  .ofTexts (scraps.map (Scrap.words config vars))

/-- The answer that an entry gives. -/
def Mark.answer (mark : Mark) : Answer :=
  match mark.saying with
  | .remark .nothing => .nothing
  | .remark (.id? v) => .id? ((config.naming.numbered mark.lookedUp).eraseDups.idxOf? v)
  | .remark .width => .width (config.inside mark.around).indentWidth
  | .remark .config => .config (config.inside mark.around)
  | .remark .output => .text (Scrap.output config vars mark.output).text
  | .remark .body => .body mark.earlier
  | .remark .header => .header (some mark.earlier)
  | .remark .skipped => .header none
  | .label v => .text (Scrap.words config vars (.label v))
  | .captured scraps =>
    .capture mark.earlier (Scrap.output config vars scraps).text
      (Scrap.output config vars scraps).count

/-- The entry in words. -/
def Mark.entry (mark : Mark) : Entry where
  moment := mark.moment
  bytes := (Scrap.output config vars mark.output).bytes
  pieces := (Scrap.output config vars mark.output).count
  level := config.depthIn mark.around
  names := (config.naming.numbered mark.lookedUp).eraseDups.length
  answer := mark.answer config vars

theorem Scrap.output_append (ss ts : List Scrap) :
    Scrap.output config vars (ss ++ ts) =
      Scrap.output config vars ss ++ Scrap.output config vars ts := by
  rw [Scrap.output, List.map_append]
  exact Output.ofTexts_append _ _

theorem Scrap.output_concat (ss : List Scrap) (s : Scrap) :
    Scrap.output config vars (ss ++ [s]) =
      (Scrap.output config vars ss).push (s.words config vars) := by
  rw [Scrap.output, List.map_append]
  exact Output.ofTexts_concat _ _

theorem Scrap.text_output (ss : List Scrap) :
    (Scrap.output config vars ss).text = String.join (ss.map (Scrap.words config vars)) :=
  Output.text_ofTexts _

end

/-! ## 4. Machines that are a draft in words -/

/-- The answers to the steps of a kind, in their order. -/
def Notebook.answers (deed : Deed) (book : Notebook) : List Answer :=
  (book.trace.toList.filter (·.moment = .done deed)).map Entry.answer

/-- The machine is the draft put into words, and the variables with a number are those that were looked
    up, as far as the strategy numbers them. -/
structure Machine.Draws (config : Config) (vars : List Var) (d : Draft) (m : Machine) : Prop where
  output : m.context.output = Scrap.output config vars d.output
  outers : m.outers = d.outers.map (Scrap.output config vars)
  kept : ∀ key, (m.book.kept.get? key).getD .empty = Scrap.output config vars (d.kept key)
  names : m.context.names.vars = (config.naming.numbered d.lookedUp).eraseDups
  trace : m.book.trace.toList = d.marks.map (Mark.entry config vars)

namespace Machine.Draws

variable {config : Config} {vars : List Var} {d : Draft} {m : Machine}

theorem write (h : Draws config vars d m) {scrap : Scrap} {s : String}
    (hs : s = scrap.words config vars) :
    Draws config vars (d.write scrap) (m.onContext (·.write s)) := by
  have houtput : m.context.output.push s = Scrap.output config vars (d.output ++ [scrap]) := by
    rw [Scrap.output_concat, h.output, hs]
  exact { h with output := houtput }

/-- **A label that is looked up** puts its variable on the list, if the strategy numbers it. -/
theorem lookUp (h : Draws config vars d m) (hnaming : m.context.config.naming = config.naming)
    (v : Var) : Draws config vars (d.lookUp v) (m.onContext (·.named v)) := by
  have hnames : (m.context.config.naming.record v m.context.names).vars =
      (config.naming.numbered (d.lookedUp ++ [v])).eraseDups := by
    rw [Naming.vars_record_eq_foldl, hnaming, h.names, foldl_enlist, Naming.numbered_append]
  exact { h with names := hnames }

/-- **An entry.** The scopes tell the depth, and the mark tells the rest. -/
theorem mark (h : Draws config vars d m) {around : List Scope}
    (hconfig : m.context.config = config.inside around) {moment : Moment} {saying : Saying}
    {answer : Answer}
    (hanswer : answer =
      Mark.answer config vars ⟨moment, around, d.output, d.lookedUp, d.marks.length, saying⟩) :
    Draws config vars (d.mark moment around saying) (m.note moment answer) := by
  have hentry : m.context.entry moment answer =
      Mark.entry config vars ⟨moment, around, d.output, d.lookedUp, d.marks.length, saying⟩ := by
    rw [Context.entry, Mark.entry, h.output, hconfig, NameTable.size_eq_length, h.names, hanswer]
    rfl
  have htrace : (m.book.note m.context moment answer).trace.toList =
      (d.mark moment around saying).marks.map (Mark.entry config vars) := by
    rw [Notebook.toList_trace_note, h.trace, hentry, Draft.mark, List.map_append]
    rfl
  exact { h with trace := htrace }

/-- **The answers to the steps of a kind** are what the marks say that were made after them. -/
theorem answers (h : Draws config vars d m) (deed : Deed) :
    m.book.answers deed =
      (d.marks.filter (·.moment = .done deed)).map (Mark.answer config vars) := by
  rw [Notebook.answers, h.trace, List.filter_map, List.map_map]
  rfl

theorem size_trace (h : Draws config vars d m) : m.book.trace.size = d.marks.length := by
  rw [← Array.length_toList, h.trace, List.length_map]

theorem atDepth (h : Draws config vars d m) (depth : Nat) :
    Draws config vars d (m.onContext (·.atDepth depth)) :=
  { h with }

theorem setAside (h : Draws config vars d m) : Draws config vars d.setAside m.setAside := by
  have houters : m.context.output :: m.outers =
      (d.output :: d.outers).map (Scrap.output config vars) := by
    rw [List.map_cons, h.output, h.outers]
  exact { h with output := rfl, outers := houters }

theorem keep (h : Draws config vars d m) (key : String) :
    Draws config vars (d.keep key) (m.keep key) := by
  have houters := h.outers
  unfold Machine.keep Draft.keep
  cases hd : d.outers with
  | nil =>
    rw [hd] at houters
    rw [houters]
    exact h
  | cons outer outers =>
    rw [hd, List.map_cons] at houters
    rw [houters]
    refine { h with output := rfl, outers := rfl, kept := fun other => ?_ }
    change ((m.book.kept.put key m.context.output).get? other).getD .empty =
      Scrap.output config vars (Function.update d.kept key d.output other)
    rw [Shelf.get?_put]
    by_cases ho : other = key
    · rw [if_pos ho, ho, Function.update_self]
      exact h.output
    · rw [if_neg ho, Function.update_of_ne ho]
      exact h.kept other

theorem splice (h : Draws config vars d m) (key : String) :
    Draws config vars (d.splice key) (m.splice key) := by
  have houtput : m.context.output ++ (m.book.kept.get? key).getD .empty =
      Scrap.output config vars (d.output ++ d.kept key) := by
    rw [Scrap.output_append, h.output, h.kept]
  refine { h with output := houtput, kept := fun other => ?_ }
  change ((m.book.kept.erase key).get? other).getD .empty =
    Scrap.output config vars (Function.update d.kept key [] other)
  rw [Shelf.get?_erase]
  by_cases ho : other = key
  · rw [if_pos ho, ho, Function.update_self]
    rfl
  · rw [if_neg ho, Function.update_of_ne ho]
    exact h.kept other

/-- What there is to say of the machine is what the mark says. -/
theorem answer (h : Draws config vars d m) {around : List Scope}
    (hconfig : m.context.config = config.inside around) (moment : Moment) (remark : Remark) :
    remark.answer m =
      Mark.answer config vars
        ⟨moment, around, d.output, d.lookedUp, d.marks.length, .remark remark⟩ := by
  cases remark with
  | id? v =>
    have hid : m.context.names.get? v =
        (config.naming.numbered d.lookedUp).eraseDups.idxOf? v := by
      rw [NameTable.get?_eq_idxOf?, h.names]
    exact congrArg Answer.id? hid
  | width => exact congrArg (fun c : Config => Answer.width c.indentWidth) hconfig
  | config => exact congrArg Answer.config hconfig
  | output => exact congrArg (fun o : Output => Answer.text o.text) h.output
  | body => exact congrArg Answer.body h.size_trace
  | header => exact congrArg (fun n => Answer.header (some n)) h.size_trace
  | nothing | skipped => rfl

end Machine.Draws

/-- **Machines that are one draft in different words** give the same answers to the steps that ask for
    numbers, if the same variables are numbered. -/
theorem Machine.Draws.answers_get {config config' : Config} {vars : List Var} {d : Draft}
    {m m' : Machine} (hm : m.Draws config vars d) (hm' : m'.Draws config' vars d)
    (hnumbered : ∀ vs, config'.naming.numbered vs = config.naming.numbered vs)
    (hfits : ∀ mark ∈ d.marks, mark.Fits) : m'.book.answers .get = m.book.answers .get := by
  rw [hm'.answers, hm.answers]
  refine List.map_congr_left fun mark hmark => ?_
  obtain ⟨hmem, hmoment⟩ := List.mem_filter.mp hmark
  obtain ⟨v, hsaying⟩ := (hfits mark hmem).exists_id? (of_decide_eq_true hmoment)
  rw [Mark.answer, Mark.answer, hsaying]
  exact congrArg (fun vs : List Var => Answer.id? (vs.eraseDups.idxOf? v)) (hnumbered mark.lookedUp)

/-! ## 5. Moves and runs -/

/-- **What a move does to the machine, it does to the draft.** The words of a label are those that the
    variable has in the end, since a label stays while the table grows. -/
theorem Move.draws_exec {config : Config} {t : NameTable} {d : Draft} {m n : Machine} {p : Placed}
    (hm : m.Draws config t.vars d) (hconfig : m.context.config = config.inside p.around)
    (h : p.move.exec m = .ok n) (ht : t.Extends n.context.names) :
    n.Draws config t.vars (d.move p) := by
  obtain ⟨around, mv⟩ := p
  have hnaming : m.context.config.naming = config.naming := by
    rw [hconfig]
    rfl
  have hlabel : ∀ v, t.Extends (m.context.config.naming.record v m.context.names) →
      m.context.labelOf v = Scrap.words config t.vars (.label v) := fun v hv => by
    rw [Scrap.words, ← hnaming]
    exact Naming.spelling_of_extends_record hv
  cases mv with
  | write s =>
    cases h
    exact hm.write rfl
  | newline =>
    cases h
    have hnewlines : m.context.config.newlines = config.newlines := by
      rw [hconfig]
      rfl
    by_cases hn : config.newlines = true
    · rw [hnewlines, if_pos hn]
      exact hm.write (if_pos hn).symm
    · -- where lines do not end, a newline is the empty text, which is not kept
      have hs : "" = Scrap.words config t.vars .newline := (if_neg hn).symm
      rw [hnewlines, if_neg hn]
      exact hm.write hs
  | indentation =>
    obtain ⟨s, hs, rfl⟩ := Move.exists_of_indentation_exec h
    refine hm.write ?_
    rw [Config.indentation_eq_ok hs, hconfig]
    rfl
  | label v =>
    rw [Move.eq_of_label_exec h] at ht ⊢
    exact (hm.lookUp hnaming v).write (hlabel v ht)
  | name v =>
    rw [Move.eq_of_name_exec h] at ht ⊢
    refine (hm.lookUp hnaming v).mark hconfig ?_
    rw [hlabel v ht]
    rfl
  | splice key =>
    cases h
    exact hm.splice key
  | further | level =>
    cases h
    exact { hm.atDepth _ with }
  | leave =>
    cases h
    unfold Machine.leave
    cases m.depths with
    | nil => exact hm
    | cons depth depths => exact { hm.atDepth depth with }
  | setAside =>
    cases h
    exact hm.setAside
  | keep key =>
    cases h
    have hkept : (m.keep key).context.config = config.inside around := by
      unfold Machine.keep
      cases m.outers <;> exact hconfig
    refine (hm.keep key).mark hkept ?_
    rw [hm.size_trace, hm.output, Draft.marks_keep]
    rfl
  | note moment remark =>
    cases h
    exact hm.mark hconfig (hm.answer hconfig moment remark)

/-- **A run does to the draft what it does to the machine.** -/
theorem Machine.draws_run {config : Config} {t : NameTable} {ps : List Placed} {d : Draft}
    {m n : Machine} (hm : m.Draws config t.vars d)
    (hconfig : ∀ p k, Reaches ps m p k → k.context.config = config.inside p.around)
    (h : run (ps.map Placed.move) m = .ok n) (ht : t.Extends n.context.names) :
    n.Draws config t.vars (ps.foldl Draft.move d) := by
  induction ps generalizing m d with
  | nil =>
    cases h
    exact hm
  | cons p ps ih =>
    obtain ⟨m₁, hexec, hrest⟩ := exists_exec_of_cons h
    have hp : m.context.config = config.inside p.around := hconfig p m (reaches_head p ps m)
    have ht₁ : t.Extends m₁.context.names := ht.trans (extends_run hrest)
    have hm₁ : m₁.Draws config t.vars (d.move p) := Move.draws_exec hm hp hexec ht₁
    exact ih hm₁ (fun q k hreach => hconfig q k (hreach.cons hexec)) hrest

theorem Machine.draws_start (config : Config) (vars : List Var) :
    (start config).Draws config vars .blank where
  output := rfl
  outers := rfl
  kept _ := rfl
  names := rfl
  trace := rfl

/-- **Moves that do not fail put the draft into words**, with the numbers that there are in the end. -/
theorem Program.draws_of_run_moves {config : Config} {p : Program} {m : Machine}
    (h : Machine.run (p.moves config) (.start config) = .ok m) :
    m.Draws config m.context.names.vars (p.draft config) := by
  rw [← Program.map_move_placed] at h
  exact Machine.draws_run (t := m.context.names) (Machine.draws_start config _)
    (fun _ _ hreach => Program.config_of_reaches hreach) h (NameTable.Extends.refl _)

/-- A run that does not fail is its draft put into words. -/
theorem Program.exists_draws {config : Config} {p : Program} {o : Outcome Notebook}
    (h : p.run config = .ok o) :
    ∃ m, Machine.run (p.moves config) (.start config) = .ok m ∧ m.outcome = o ∧
      m.Draws config o.names.vars (p.draft config) := by
  rw [Program.run_eq] at h
  obtain ⟨m, hrun, -, rfl⟩ := Machine.exists_run_of_finish h
  exact ⟨m, hrun, rfl, Program.draws_of_run_moves hrun⟩

/-! ## 6. Labels of a run -/

/-- The label of `v` in a program, with the number that it has in the end. -/
def Program.label (config : Config) (p : Program) (v : Var) : String :=
  config.naming.spelling v ((config.naming.numbered (p.lookedUp config)).eraseDups.idxOf v)

section

variable {config : Config} {p : Program} {o : Outcome Notebook}

/-- The variables with a number, when all moves are done. -/
theorem Program.vars_run_moves {m : Machine}
    (h : Machine.run (p.moves config) (.start config) = .ok m) :
    m.context.names.vars = (config.naming.numbered (p.lookedUp config)).eraseDups := by
  rw [← Program.lookedUp_draft]
  exact (Program.draws_of_run_moves h).names

/-- The variables with a number, when a run has come to its end. -/
theorem Program.vars_names (h : p.run config = .ok o) :
    o.names.vars = (config.naming.numbered (p.lookedUp config)).eraseDups := by
  obtain ⟨m, hrun, rfl, -⟩ := Program.exists_draws h
  exact Program.vars_run_moves hrun

theorem Program.words_label (h : p.run config = .ok o) (v : Var) :
    Scrap.words config o.names.vars (.label v) = p.label config v := by
  rw [Program.vars_names h]
  rfl

/-- A label that a run computes is the one with the number of the end. -/
theorem Program.label_of_mem_lookups (h : p.run config = .ok o) {a : Lookup}
    (ha : a ∈ p.lookups config) : a.label = p.label config a.var := by
  have hwords := Program.words_label h
  obtain ⟨final, hrun, rfl, -⟩ := Program.exists_draws h
  obtain ⟨before, mv, after, m, n, hmoves, hbefore, hexec, hvar, hlabel⟩ :=
    Machine.mem_lookups.mp ha
  rw [hmoves] at hrun
  obtain ⟨m', hbefore', hafter⟩ := Machine.exists_run_of_append hrun
  cases hbefore'.symm.trans hbefore
  obtain ⟨n', hexec', hrest⟩ := Machine.exists_exec_of_cons hafter
  cases hexec'.symm.trans hexec
  have hnames : n.context.names = m.context.config.naming.record a.var m.context.names := by
    rw [Move.names_exec hexec, hvar]
  have hextends : final.context.names.Extends
      (m.context.config.naming.record a.var m.context.names) := by
    rw [← hnames]
    exact Machine.extends_run hrest
  have hnaming : m.context.config.naming = config.naming := by
    rw [Machine.config_run hbefore]
    rfl
  rw [hlabel, Context.labelOf, Naming.spelling_of_extends_record hextends, hnaming, ← hwords]
  rfl

/-- **A run computes the labels of the variables that its program looks up**, one after the other. -/
theorem Program.lookups_eq_map (h : p.run config = .ok o) :
    p.lookups config = (p.lookedUp config).map fun v => ⟨v, p.label config v⟩ := by
  have hvars : (p.lookups config).map Lookup.var = p.lookedUp config := by
    obtain ⟨m, hrun, -, -⟩ := Program.exists_draws h
    rw [Program.lookups, Machine.map_var_lookups hrun, Program.filterMap_moves]
  rw [← hvars, List.map_map]
  refine (List.map_id _).symm.trans (List.map_congr_left fun a ha => ?_)
  rw [id, Function.comp_apply, ← Program.label_of_mem_lookups h ha]

end

end Emission
