import Emission.Proofs.Draft

/-!
# Contents

The contents of a program are the texts and the labels that it writes, in their order, without the
indentations and the newlines around them. They can be read off the program, once it is settled how
variables are spelt: a body has its contents where it stands, a header has them if headers are written,
and what is captured stands where it is spliced.

* `Program.contents` is this reading.
* A draft has the contents of its program (`Program.contents_draft`). Moves that yield some contents
  can be put one after the other and into scopes (`Yields`), and so it goes by the program.
-/

namespace Emission

/-! ## 1. Contents of programs -/

/-- What has been written, and what is kept under each name. -/
structure Contents where
  text : String
  kept : String → String

namespace Contents

def empty : Contents := ⟨"", fun _ => ""⟩

def write (s : String) (c : Contents) : Contents :=
  { c with text := c.text ++ s }

/-- Writes what is kept under `key`, and keeps it no longer. -/
def splice (key : String) (c : Contents) : Contents :=
  ⟨c.text ++ c.kept key, Function.update c.kept key ""⟩

/-- Keeps what `body` writes on its own. -/
def capture (key : String) (body : Contents → Contents) (c : Contents) : Contents :=
  let inner := body { c with text := "" }
  ⟨c.text, Function.update inner.kept key inner.text⟩

theorem write_empty : write "" = id := by
  funext c
  exact congrArg (mk · c.kept) String.append_empty

end Contents

section

variable (spell : Var → String)

mutual

/-- What a node writes but for the layout, where variables are spelt by `spell`. -/
def Node.contents : Node → String
  | .text s | .literal s => s
  | .var v => spell v
  | .list nodes => String.join (Node.contentsEach nodes)
  | .absent => ""
  | .present node | .boxed node | .ref node => node.contents
  | .within _ node => node.contents
  | .sep separator nodes => separator.intercalate (Node.contentsEach nodes)

/-- What each of some nodes writes. -/
def Node.contentsEach : List Node → List String
  | [] => []
  | node :: nodes => node.contents :: Node.contentsEach nodes

end

/-- What an act adds to the contents. -/
def Act.contents : Act → Contents → Contents
  | emit _ s => .write s
  | var v => .write (spell v)
  | splice key => .splice key
  | render node => .write (node.contents spell)
  | sep items separator => .write (separator.intercalate (Node.contentsEach spell items))
  | newline | name _ | get _ | width | config | output => id

mutual

/-- What a step adds to the contents, where headers are written or are not. -/
def Step.contents (header : Bool) : Step → Contents → Contents
  | .act a => a.contents spell
  | .within _ body => Step.contentsAll header body
  | .header body => if header then Step.contentsAll header body else id
  | .capture key body => .capture key (Step.contentsAll header body)

/-- What some steps add to the contents. -/
def Step.contentsAll (header : Bool) : List Step → Contents → Contents
  | [] => id
  | step :: steps => Step.contentsAll header steps ∘ step.contents header

end

/-- The contents of a program, where headers are written or are not. -/
def Program.contents (header : Bool) (p : Program) : Contents :=
  Step.contentsAll spell header p .empty

/-! ## 2. Contents of drafts -/

/-- The words of a scrap, if they are not a matter of layout. -/
def Scrap.content? : Scrap → Option String
  | text s => some s
  | label v => some (spell v)
  | indentation _ | newline => none

/-- The words of some scraps, without the layout. -/
def Scrap.contents (scraps : List Scrap) : String :=
  String.join (scraps.filterMap (Scrap.content? spell))

/-- What the draft has written and keeps, without the layout. -/
def Draft.contents (d : Draft) : Contents :=
  ⟨Scrap.contents spell d.output, Scrap.contents spell ∘ d.kept⟩

theorem Scrap.contents_append (ss ts : List Scrap) :
    Scrap.contents spell (ss ++ ts) = Scrap.contents spell ss ++ Scrap.contents spell ts := by
  rw [Scrap.contents, List.filterMap_append, String.join_append]
  rfl

theorem Draft.contents_write (scrap : Scrap) (d : Draft) :
    (d.write scrap).contents spell = (d.contents spell).write ((scrap.content? spell).getD "") := by
  have hscrap : Scrap.contents spell [scrap] = (scrap.content? spell).getD "" := by
    cases scrap with
    | text | label => exact String.empty_append
    | indentation | newline => rfl
  rw [Draft.contents, Draft.write, Scrap.contents_append, hscrap]
  rfl

/-! ## 3. Moves and the contents they yield -/

/-- Whatever is in the draft, the moves do to its contents what `f` does, and put back what they put
    aside. -/
def Yields (f : Contents → Contents) (ps : List Placed) : Prop :=
  ∀ d : Draft, (ps.foldl Draft.move d).contents spell = f (d.contents spell) ∧
    (ps.foldl Draft.move d).outers = d.outers

end

section

variable {spell : Var → String} {f g : Contents → Contents} {ps qs : List Placed}

theorem yields_nil : Yields spell id [] :=
  fun _ => ⟨rfl, rfl⟩

/-- **Moves one after the other.** -/
theorem Yields.append (hf : Yields spell f ps) (hg : Yields spell g qs) :
    Yields spell (g ∘ f) (ps ++ qs) := by
  intro d
  obtain ⟨hcontents, houters⟩ := hf d
  obtain ⟨hcontents', houters'⟩ := hg (ps.foldl Draft.move d)
  rw [List.foldl_append, hcontents', hcontents, houters', houters]
  exact ⟨rfl, rfl⟩

theorem Yields.append_write {s t : String} (hs : Yields spell (.write s) ps)
    (ht : Yields spell (.write t) qs) : Yields spell (.write (s ++ t)) (ps ++ qs) := by
  have hwrite : Contents.write (s ++ t) = .write t ∘ .write s := by
    funext c
    exact congrArg (Contents.mk · c.kept) String.append_assoc.symm
  rw [hwrite]
  exact hs.append ht

theorem yields_write (around : List Scope) (s : String) :
    Yields spell (.write s) [⟨around, .write s⟩] :=
  fun d => ⟨Draft.contents_write spell (.text s) d, rfl⟩

theorem yields_label (around : List Scope) (v : Var) :
    Yields spell (.write (spell v)) [⟨around, .label v⟩] :=
  fun d => ⟨Draft.contents_write spell (.label v) (d.lookUp v), rfl⟩

/-- Whether the move leaves the contents alone. -/
def Move.silent : Move → Bool
  | newline | indentation | name _ | further | level _ | leave | note _ _ => true
  | write _ | label _ | splice _ | setAside | keep _ => false

theorem yields_silent {p : Placed} (h : p.move.silent = true) : Yields spell id [p] := by
  obtain ⟨around, mv⟩ := p
  intro d
  have hlayout : ∀ scrap : Scrap, scrap.content? spell = none →
      (d.write scrap).contents spell = d.contents spell := fun scrap hscrap => by
    rw [Draft.contents_write, hscrap, Option.getD_none, Contents.write_empty]
    rfl
  cases mv with
  | newline => exact ⟨hlayout .newline rfl, rfl⟩
  | indentation => exact ⟨hlayout (.indentation around) rfl, rfl⟩
  | name | further | level | leave | note => exact ⟨rfl, rfl⟩
  | write | label | splice | setAside | keep => cases h

theorem yields_silents (h : ∀ p ∈ ps, p.move.silent = true) : Yields spell id ps := by
  induction ps with
  | nil => exact yields_nil
  | cons p ps ih =>
    obtain ⟨hp, hps⟩ := List.forall_mem_cons.mp h
    exact (yields_silent hp).append (ih hps)

/-- **A scope adds nothing to the contents of its body.** -/
theorem Yields.scope (h : Yields spell f ps) (around : List Scope) (scope : Scope) :
    Yields spell f (scope.placed around ps) := by
  have hbefore : ∀ p ∈ scope.before.map (Placed.mk around), p.move.silent = true := by
    cases scope <;> exact List.forall_mem_singleton.mpr rfl
  have hafter : ∀ p ∈ scope.after.map (Placed.mk (around ++ [scope])), p.move.silent = true := by
    cases scope with
    | indent => exact List.forall_mem_nil _
    | line | further | level => exact List.forall_mem_singleton.mpr rfl
  exact ((yields_silents hbefore).append h).append (yields_silents hafter)

/-! ## 4. Nodes -/

/-- Moves that write one text each. -/
theorem yields_flatten {ss : List String} {pss : List (List Placed)}
    (h : List.Forall₂ (fun s ps => Yields spell (.write s) ps) ss pss) :
    Yields spell (.write (String.join ss)) pss.flatten := by
  induction h with
  | nil =>
    rw [String.join_nil, Contents.write_empty]
    exact yields_nil
  | cons hs _ ih =>
    rw [String.join_cons, List.flatten_cons]
    exact hs.append_write ih

/-- All but the first text have the separator before them. -/
theorem Text.intercalate_cons (separator s : String) (ss : List String) :
    separator.intercalate (s :: ss) = s ++ String.join (ss.map (separator ++ ·)) := by
  induction ss generalizing s with
  | nil => exact String.append_empty.symm
  | cons t ss ih =>
    rw [String.intercalate_cons_cons, ih, List.map_cons, String.join_cons, String.append_assoc,
      String.append_assoc]

theorem yields_separated (around : List Scope) (separator : String) {ss : List String}
    {pss : List (List Placed)}
    (h : List.Forall₂ (fun s ps => Yields spell (.write s) ps) ss pss) :
    Yields spell (.write (separator.intercalate ss)) (Placed.separated around separator pss) := by
  cases h with
  | nil =>
    rw [String.intercalate_nil, Contents.write_empty]
    exact yields_nil
  | cons hs hss =>
    rw [Text.intercalate_cons, Placed.separated, List.flatMap_def]
    refine hs.append_write (yields_flatten ?_)
    rw [List.forall₂_map_left_iff, List.forall₂_map_right_iff]
    exact hss.imp fun _ _ ht => (yields_write around separator).append_write ht

mutual

/-- **A node yields its contents**, wherever it stands. -/
theorem Node.yields_placed (around : List Scope) : ∀ node : Node,
    Yields spell (.write (node.contents spell)) (node.placed around)
  | .text s | .literal s => yields_write around s
  | .var v => yields_label around v
  | .list nodes => yields_flatten (Node.yields_placedEach around nodes)
  | .absent => by
    rw [Node.contents, Contents.write_empty]
    exact yields_nil
  | .present node | .boxed node | .ref node => Node.yields_placed around node
  | .within scope node => (Node.yields_placed (around ++ [scope]) node).scope around scope
  | .sep separator nodes => yields_separated around separator (Node.yields_placedEach around nodes)

theorem Node.yields_placedEach (around : List Scope) : ∀ nodes : List Node,
    List.Forall₂ (fun s ps => Yields spell (.write s) ps) (Node.contentsEach spell nodes)
      (Node.placedEach around nodes)
  | [] => .nil
  | node :: nodes => .cons (Node.yields_placed around node) (Node.yields_placedEach around nodes)

end

/-! ## 5. Steps -/

theorem yields_splice (around : List Scope) (key : String) :
    Yields spell (.splice key) [⟨around, .splice key⟩] := by
  intro d
  have hkept : Scrap.contents spell ∘ Function.update d.kept key [] =
      Function.update (Scrap.contents spell ∘ d.kept) key "" :=
    Function.comp_update _ _ _ _
  exact ⟨congrArg₂ Contents.mk (Scrap.contents_append spell _ _) hkept, rfl⟩

/-- **A capture keeps what its body writes**, and gives the output back as it was. -/
theorem Yields.capture (h : Yields spell f ps) (around : List Scope) (key : String) :
    Yields spell (.capture key f)
      (⟨around, .setAside⟩ :: (⟨around, .note (.entered .capture) .nothing⟩ :: ps) ++
        [⟨around, .keep key⟩]) := by
  intro d
  let entered := d.setAside.mark (.entered .capture) around (.remark .nothing)
  let inner := ps.foldl Draft.move entered
  obtain ⟨hcontents, houters⟩ := h entered
  -- what the body put aside it put back, so the output that comes back is the one of `d`
  have hkeep : inner.keep key =
      { inner with output := d.output, outers := d.outers,
                   kept := Function.update inner.kept key inner.output } := by
    rw [Draft.keep, houters]
    rfl
  have hkept : Scrap.contents spell ∘ Function.update inner.kept key inner.output =
      Function.update (f (entered.contents spell)).kept key (f (entered.contents spell)).text := by
    rw [Function.comp_update, ← hcontents]
    rfl
  rw [List.foldl_append]
  change ((inner.keep key).mark _ _ _).contents spell = _ ∧ ((inner.keep key).mark _ _ _).outers = _
  rw [hkeep]
  exact ⟨congrArg (Contents.mk _) hkept, rfl⟩

theorem Act.yields_placed (around : List Scope) (a : Act) :
    Yields spell (a.contents spell) (a.placed around) := by
  cases a with
  | emit how s => exact (yields_write around s).append (yields_silent rfl)
  | var v => exact (yields_label around v).append (yields_silent rfl)
  | splice key => exact (yields_splice around key).append (yields_silent rfl)
  | render node => exact (Node.yields_placed around node).append (yields_silent rfl)
  | sep items separator =>
    exact (yields_separated around separator (Node.yields_placedEach around items)).append
      (yields_silent rfl)
  | newline => exact (yields_silent rfl).append (yields_silent rfl)
  | name | get | width | config | output => exact yields_silent rfl

mutual

/-- **A step yields its contents**, wherever it stands. -/
theorem Step.yields_placed (header : Bool) (around : List Scope) : ∀ s : Step,
    Yields spell (s.contents spell header) (s.placed header around)
  | .act a => a.yields_placed around
  | .within scope body => by
    have hbody := (yields_silent (p := ⟨around ++ [scope], .note (.entered scope.deed) .nothing⟩)
      rfl).append (Step.yields_placedAll header (around ++ [scope]) body)
    exact (hbody.scope around scope).append (yields_silent rfl)
  | .header body => by
    rw [Step.contents, Step.placed]
    split
    · exact ((yields_silent (p := ⟨around, .note (.entered .header) .nothing⟩) rfl).append
        (Step.yields_placedAll header around body)).append (yields_silent rfl)
    · exact yields_silent rfl
  | .capture key body => (Step.yields_placedAll header around body).capture around key

theorem Step.yields_placedAll (header : Bool) (around : List Scope) : ∀ steps : List Step,
    Yields spell (Step.contentsAll spell header steps) (Step.placedAll header around steps)
  | [] => yields_nil
  | step :: steps =>
    (Step.yields_placed header around step).append (Step.yields_placedAll header around steps)

end

/-- **A draft has the contents of its program.** -/
theorem Program.contents_draft (config : Config) (p : Program) :
    (p.draft config).contents spell = p.contents spell config.header :=
  (Step.yields_placedAll config.header [] p .blank).1

end

/-- What is captured first is written last, and a line adds nothing. -/
example :
    let p : Program :=
      [.capture "k" [.within .line [.act (.emit .lent "b")]], .act (.emit .lent "a"),
        .act (.render (.sep "," [.var (.internal "x"), .absent])), .act (.splice "k")]
    (p.contents Var.qualified false).text = "ax,b" := by
  decide +kernel

end Emission
