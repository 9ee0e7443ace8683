import Emission.Proofs.Machine
import Emission.Proofs.PlainText

/-!
# Runs agree with the plain reading

A run that does not fail gives what the plain reading of the program gives (`run_agrees`): the text,
every note in the trace but for the numbers of pieces, and the numbering.

* `Follows` is about emission computations and pages: started where the reading is at a page, the
  computation ends, if it does not fail, where the reading is at a page that is described.
* `Reads` is the same for computations with a notebook and whole readings.

Each comes with a rule for every way of building computations; the theorems on nodes and steps apply
the rule of each constructor.
-/

namespace Emission

/-- The output has the text `s`, and counts its bytes right. -/
def Output.Spells (o : Output) (s : String) : Prop :=
  o.text = s ∧ o.bytes = s.utf8ByteSize

namespace Output

theorem spells_empty : empty.Spells "" :=
  ⟨rfl, rfl⟩

theorem Spells.push {o : Output} {s : String} (h : o.Spells s) (t : String) :
    (o.push t).Spells (s ++ t) := by
  refine ⟨?_, ?_⟩
  · rw [text_push, h.1]
  · rw [bytes_push, h.2, String.utf8ByteSize_append]

theorem Spells.append {o other : Output} {s t : String} (h : o.Spells s) (h' : other.Spells t) :
    (o ++ other).Spells (s ++ t) := by
  refine ⟨?_, ?_⟩
  · rw [text_append, h.1, h'.1]
  · rw [bytes_append, h.2, h'.2, String.utf8ByteSize_append]

end Output

/-- The answer, with the number of pieces left out. -/
def Answer.withoutPieces : Answer → Answer
  | .capture entries s _ => .capture entries s 0
  | answer => answer

/-- The entry, with the numbers of pieces left out. -/
def Entry.withoutPieces (e : Entry) : Entry :=
  { e with pieces := 0, answer := e.answer.withoutPieces }

namespace PlainText

/-! ## 1. States and readings -/

/-- The run is where the reading is, under the configuration in force. -/
structure Shows (cfg : Config) (c : Context) (page : Page) : Prop where
  config : c.config = cfg
  output : c.output.Spells page.text
  names : c.names.vars = page.names

/-- The notebook has what the reading has kept and noted. -/
structure Records (book : Notebook) (r : Reading) : Prop where
  kept : ∀ key, ((book.kept.get? key).getD .empty).Spells (r.kept key)
  trace : book.trace.toList.map Entry.withoutPieces = r.trace

theorem records_empty : Records .empty .start where
  kept _ := Output.spells_empty
  trace := rfl

@[simp] theorem Page.write_empty (page : Page) : page.write "" = page := by
  simp [Page.write]

variable {α β : Type} {cfg : Config}

theorem Shows.push {c : Context} {page : Page} (h : Shows cfg c page) (s : String) :
    Shows cfg { c with output := c.output.push s } (page.write s) where
  config := h.config
  output := h.output.push s
  names := h.names

/-! ## 2. Emission computations and pages -/

/-- Where the reading is at `page` and `x` does not fail, `x` ends where the reading is at a page as
    described by `post`. -/
def Follows (cfg : Config) (page : Page) (x : Emit α) (post : α → Page → Prop) : Prop :=
  ∀ c, Shows cfg c page → ∀ a c', x c = .ok (a, c') → ∃ page', Shows cfg c' page' ∧ post a page'

theorem follows_pure {page : Page} {a : α} {post : α → Page → Prop} (h : post a page) :
    Follows cfg page (pure a) post := by
  intro c hc b c' hx
  cases hx
  exact ⟨page, hc, h⟩

theorem Follows.mono {page : Page} {x : Emit α} {post post' : α → Page → Prop}
    (hx : Follows cfg page x post) (h : ∀ a p, post a p → post' a p) :
    Follows cfg page x post' := by
  intro c hc a c' hxc
  obtain ⟨page', hc', hpost⟩ := hx c hc a c' hxc
  exact ⟨page', hc', h a page' hpost⟩

theorem Follows.bind {page : Page} {x : Emit α} {f : α → Emit β} {mid : α → Page → Prop}
    {post : β → Page → Prop} (hx : Follows cfg page x mid)
    (hf : ∀ a p, mid a p → Follows cfg p (f a) post) : Follows cfg page (x >>= f) post := by
  intro c hc b c' h
  obtain ⟨r, hxc, hfr⟩ := bind_eq_ok_iff.mp h
  obtain ⟨p, hp, hmid⟩ := hx c hc r.1 r.2 hxc
  exact hf r.1 p hmid r.2 hp b c' hfr

/-- A computation that is known to turn the page into another one, and another after it. -/
theorem Follows.seq {page page' : Page} {x : Emit α} {y : Emit β} {post : β → Page → Prop}
    (hx : Follows cfg page x fun _ p => p = page') (hy : Follows cfg page' y post) :
    Follows cfg page (do let _ ← x; y) post :=
  hx.bind fun _ _ hp => hp ▸ hy

theorem follows_call (page : Page) (k : Call) :
    Follows cfg page (Emit.call k) fun _ p => p = page.write k.payload := by
  intro c hc a c' h
  rw [Emit.call_apply, Output.run_eq_push] at h
  cases h
  exact ⟨_, hc.push k.payload, rfl⟩

theorem follows_newline (page : Page) :
    Follows cfg page Emit.newline fun _ p => p = page.write (ending cfg) := by
  intro c hc a c' h
  have hcfg := hc.config
  subst hcfg
  rw [Emit.newline_apply] at h
  unfold ending
  cases h
  by_cases hn : c.config.newlines = true
  · rw [if_pos hn, if_pos hn]
    exact ⟨_, hc.push "\n", rfl⟩
  · rw [if_neg hn, if_neg hn]
    exact ⟨page, hc, (Page.write_empty page).symm⟩

/-- **An indentation that does not fail is the unit, as often as the depth says.** -/
theorem follows_indentation (page : Page) :
    Follows cfg page Emit.indentation fun _ p =>
      p = page.write (Text.copies cfg.indentUnit cfg.indentLevel) := by
  intro c hc a c' h
  have hcfg := hc.config
  subst hcfg
  rw [Emit.indentation_apply] at h
  obtain ⟨s, hs, hwritten⟩ := map_eq_ok_iff.mp h
  rw [Config.indentation_eq_ok hs] at hwritten
  cases hwritten
  exact ⟨_, hc.push _, rfl⟩

theorem idxOf_names_label (cfg : Config) (v : Var) (page : Page) :
    (label cfg v page).2.names.idxOf v = page.names.idxOf v := by
  unfold label
  dsimp only
  split
  · exact idxOf_enlist page.names v
  · rfl

/-- **The label of a run is the label of the reading**: a strategy reads nothing of the table but the
    place of the variable. -/
theorem follows_name (page : Page) (v : Var) :
    Follows cfg page (Emit.name v) fun l p => (l, p) = label cfg v page := by
  intro c hc a c' h
  have hcfg := hc.config
  subst hcfg
  rw [Emit.name_eq] at h
  obtain ⟨-, -, hname⟩ := map_eq_ok_iff.mp h
  cases hname
  refine ⟨(label c.config v page).2, ⟨rfl, hc.output, ?_⟩, Prod.ext ?_ rfl⟩
  · change (c.config.naming.record v c.names).vars = _
    rw [Naming.vars_record, hc.names]
    rfl
  · change c.config.naming.spelling v (c.names.vars.idxOf v) = _
    rw [hc.names, ← idxOf_names_label c.config v page]
    rfl

theorem follows_emitVar (page : Page) (v : Var) :
    Follows cfg page (Emit.emitVar v) fun _ p => p = writeVar cfg v page := by
  refine (follows_name page v).bind fun l p hl => ?_
  refine (follows_call p (.text .owned l)).mono fun _ q hq => ?_
  rw [hq, writeVar, ← hl]
  rfl

/-! ## 3. Scopes -/

theorem follows_atLevel {page : Page} {x : Emit α} {post : α → Page → Prop} (level : Nat)
    (hx : Follows { cfg with indentLevel := level } page x post) :
    Follows cfg page (Emit.atLevel level x) post := by
  intro c hc a c' h
  rw [Emit.atLevel_apply] at h
  have hin : Shows { cfg with indentLevel := level }
      { c with config := { c.config with indentLevel := level } } page :=
    ⟨by rw [hc.config], hc.output, hc.names⟩
  obtain ⟨r, hxc, hleft⟩ := map_eq_ok_iff.mp h
  cases hleft
  obtain ⟨p, hp, hpost⟩ := hx _ hin r.1 r.2 hxc
  refine ⟨p, ⟨?_, hp.output, hp.names⟩, hpost⟩
  change { r.2.config with indentLevel := c.config.indentLevel } = cfg
  rw [hp.config, hc.config]

theorem follows_further {page : Page} {x : Emit α} {post : α → Page → Prop}
    (hx : Follows { cfg with indentLevel := cfg.further } page x post) :
    Follows cfg page (Emit.further x) post := by
  intro c hc a c' h
  rw [Emit.further_apply, hc.config] at h
  exact follows_atLevel cfg.further hx c hc a c' h

/-- **What a scope adds to its body.** -/
theorem follows_scope {page : Page} {x : Emit α} {post : α → Page → Prop} (scope : Scope)
    (hx : Follows (inner cfg scope) (page.write (lead cfg scope)) x post) :
    Follows cfg page (scope.run x) fun a p => ∃ q, post a q ∧ p = q.write (close cfg scope) := by
  cases scope with
  | indent =>
    refine (follows_indentation page).seq (Follows.mono hx fun a p h => ?_)
    exact ⟨p, h, (Page.write_empty p).symm⟩
  | line =>
    have hbody : Follows cfg page x.indent post := (follows_indentation page).seq hx
    refine hbody.bind fun a p h => ?_
    refine (follows_newline p).bind fun _ q hq => ?_
    exact follows_pure ⟨p, h, hq⟩
  | further =>
    have hx' : Follows { cfg with indentLevel := cfg.further } page x post :=
      Page.write_empty page ▸ hx
    exact (follows_further hx').mono fun a p h => ⟨p, h, (Page.write_empty p).symm⟩
  | level n =>
    have hx' : Follows { cfg with indentLevel := n } page x post := Page.write_empty page ▸ hx
    exact (follows_atLevel n hx').mono fun a p h => ⟨p, h, (Page.write_empty p).symm⟩

/-! ## 4. Nodes -/

mutual

/-- **Rendering a node writes what the reading writes.** -/
theorem follows_node (cfg : Config) : ∀ (n : Node) (page : Page),
    Follows cfg page n.render fun _ p => p = node cfg n page
  | .text s, page => follows_call page (.text .lent s)
  | .literal s, page => follows_call page (.text .lent s)
  | .var v, page => follows_emitVar page v
  | .list ns, page => follows_nodes cfg ns page
  | .absent, page => follows_pure rfl
  | .present n, page => follows_node cfg n page
  | .boxed n, page => follows_node cfg n page
  | .ref n, page => follows_node cfg n page
  | .within scope n, page => by
    refine (follows_scope scope (follows_node (inner cfg scope) n _)).mono fun _ p h => ?_
    obtain ⟨q, rfl, rfl⟩ := h
    rfl
  | .sep _ [], page => follows_pure rfl
  | .sep separator (n :: ns), page => by
    have hfirst : page.write "" = page := Page.write_empty page
    refine Follows.seq (follows_node cfg n page) ?_
    refine (follows_separated cfg separator ns _).mono fun _ p h => ?_
    rw [h, node, nodes, hfirst]

/-- Without separators. -/
theorem follows_nodes (cfg : Config) : ∀ (ns : List Node) (page : Page),
    Follows cfg page (Emit.inOrder (Node.renderings ns)) fun _ p => p = nodes cfg "" "" ns page
  | [], page => follows_pure rfl
  | n :: ns, page => by
    refine Follows.seq (follows_node cfg n page) ?_
    refine (follows_nodes cfg ns _).mono fun _ p h => ?_
    rw [h, nodes, Page.write_empty]

/-- With a separator before each node. -/
theorem follows_separated (cfg : Config) (separator : String) : ∀ (ns : List Node) (page : Page),
    Follows cfg page
      (Emit.inOrder ((Node.renderings ns).map fun body => do
        Emit.emit separator
        body))
      fun _ p => p = nodes cfg separator separator ns page
  | [], page => follows_pure rfl
  | n :: ns, page => by
    have hfirst : Follows cfg page (do Emit.emit separator; n.render)
        fun _ p => p = node cfg n (page.write separator) :=
      (follows_call page (.text .lent separator)).seq (follows_node cfg n _)
    exact hfirst.seq (follows_separated cfg separator ns _)

end

theorem follows_renderSep (cfg : Config) (separator : String) (ns : List Node) (page : Page) :
    Follows cfg page (renderSep ns separator) fun _ p => p = nodes cfg "" separator ns page := by
  have h := follows_node cfg (.sep separator ns) page
  rw [Node.render, Node.renderings_eq_map] at h
  rw [node] at h
  exact h

/-! ## 5. Computations with a notebook and readings -/

/-- Where the reading is `r` and `x` does not fail, `x` ends where the reading is as described by
    `post`. -/
def Reads (cfg : Config) (r : Reading) (x : Scripted α) (post : α → Reading → Prop) : Prop :=
  ∀ book, Records book r →
    Follows cfg r.page (x book) fun res page =>
      ∃ r', r'.page = page ∧ Records res.2 r' ∧ post res.1 r'

theorem reads_pure {r : Reading} {a : α} {post : α → Reading → Prop} (h : post a r) :
    Reads cfg r (pure a) post :=
  fun _ hbook => follows_pure ⟨r, rfl, hbook, h⟩

theorem Reads.mono {r : Reading} {x : Scripted α} {post post' : α → Reading → Prop}
    (hx : Reads cfg r x post) (h : ∀ a r, post a r → post' a r) : Reads cfg r x post' := by
  intro book hbook
  refine (hx book hbook).mono fun res page hres => ?_
  obtain ⟨r', hpage, hrec, hpost⟩ := hres
  exact ⟨r', hpage, hrec, h res.1 r' hpost⟩

theorem Reads.bind {r : Reading} {x : Scripted α} {f : α → Scripted β} {mid : α → Reading → Prop}
    {post : β → Reading → Prop} (hx : Reads cfg r x mid)
    (hf : ∀ a r, mid a r → Reads cfg r (f a) post) : Reads cfg r (x >>= f) post := by
  intro book hbook
  refine Follows.bind (f := fun res => f res.1 res.2) (hx book hbook) fun res page hres => ?_
  obtain ⟨r', rfl, hrec, hmid⟩ := hres
  exact hf res.1 r' hmid res.2 hrec

/-- A computation that is known to turn the reading into another one, and another after it. -/
theorem Reads.seq {r r' : Reading} {x : Scripted α} {y : Scripted β} {post : β → Reading → Prop}
    (hx : Reads cfg r x fun _ q => q = r') (hy : Reads cfg r' y post) :
    Reads cfg r (do let _ ← x; y) post :=
  hx.bind fun _ _ hq => hq ▸ hy

/-- A computation that does not look at the notebook leaves it as it is. -/
theorem reads_lift {r : Reading} {x : Emit α} {post : α → Page → Prop}
    (hx : Follows cfg r.page x post) :
    Reads cfg r (liftM x) fun a q => post a q.page ∧ q = { r with page := q.page } := by
  intro book hbook
  refine Follows.bind (f := fun a => pure (a, book)) hx fun a page h => ?_
  exact follows_pure ⟨{ r with page }, rfl, ⟨hbook.kept, hbook.trace⟩, h, rfl⟩

/-- A computation that looks at the state and changes nothing. -/
theorem reads_state (r : Reading) :
    Reads cfg r (getThe Context) fun c q => Shows cfg c r.page ∧ q = r := by
  intro book hbook c hc a c' h
  cases h
  exact ⟨r.page, hc, r, rfl, hbook, hc, rfl⟩

theorem reads_note (r : Reading) (moment : Moment) (answer : Answer) :
    Reads cfg r (Scripted.note moment answer) fun _ q =>
      q = r.note cfg moment answer.withoutPieces := by
  intro book hbook c hc a c' h
  have hcfg := hc.config
  subst hcfg
  cases h
  refine ⟨r.page, hc, r.note c.config moment answer.withoutPieces, rfl, ⟨hbook.kept, ?_⟩, rfl⟩
  have hbytes : c.output.bytes = r.page.text.utf8ByteSize := hc.output.2
  have hnames : c.names.size = r.page.names.length := by
    rw [NameTable.size_eq_length, hc.names]
  simp [Notebook.note, Reading.note, Entry.withoutPieces, hbook.trace, hbytes, hnames]

/-- The length of the trace is the same in the run and in the reading. -/
theorem Records.size_trace {book : Notebook} {r : Reading} (h : Records book r) :
    book.trace.size = r.trace.length := by
  rw [← h.trace, List.length_map, Array.length_toList]

theorem reads_inside {r r' : Reading} {x : Scripted Unit} (deed : Deed)
    (hx : Reads cfg (r.note cfg (.entered deed) .nothing) x fun _ q => q = r') :
    Reads cfg r (Scripted.inside deed x) fun n q => n = r'.trace.length ∧ q = r' := by
  refine (reads_note r (.entered deed) .nothing).seq (hx.seq ?_)
  intro book hbook c hc a c' h
  cases h
  exact ⟨r'.page, hc, r', rfl, hbook, hbook.size_trace, rfl⟩

theorem reads_within {r : Reading} {x : Scripted α} {post : α → Reading → Prop} (scope : Scope)
    (hx : Reads (inner cfg scope) (r.onPage (·.write (lead cfg scope))) x post) :
    Reads cfg r (Scripted.within scope x) fun a q =>
      ∃ q', post a q' ∧ q = q'.onPage (·.write (close cfg scope)) := by
  intro book hbook
  refine (follows_scope scope (hx book ⟨hbook.kept, hbook.trace⟩)).mono fun res page h => ?_
  obtain ⟨_, ⟨q', rfl, hrec, hpost⟩, rfl⟩ := h
  exact ⟨q'.onPage (·.write (close cfg scope)), rfl, ⟨hrec.kept, hrec.trace⟩, q', hpost, rfl⟩

theorem reads_header_on {r : Reading} {x : Scripted α} {post : α → Reading → Prop}
    (hcfg : cfg.header = true) (hx : Reads cfg r x post) :
    Reads cfg r (Scripted.header x) fun res q => ∃ a, res = some a ∧ post a q := by
  intro book hbook c hc res c' h
  rw [Scripted.header_apply, hc.config, if_pos hcfg] at h
  obtain ⟨ran, hxc, hwritten⟩ := map_eq_ok_iff.mp h
  cases hwritten
  obtain ⟨page, hpage, q, hq, hrec, hpost⟩ := hx book hbook c hc ran.1 ran.2 hxc
  exact ⟨page, hpage, q, hq, hrec, ran.1.1, rfl, hpost⟩

theorem reads_header_off {x : Scripted α} (r : Reading) (hcfg : cfg.header = false) :
    Reads cfg r (Scripted.header x) fun res q => res = none ∧ q = r := by
  intro book hbook c hc res c' h
  rw [Scripted.header_apply, hc.config, hcfg] at h
  cases h
  exact ⟨r.page, hc, r, rfl, hbook, rfl, rfl⟩

/-- **A capture reads its body on an empty page and keeps the text; the text outside is untouched.** -/
theorem reads_capture {r : Reading} {x : Scripted α} {post : α → Reading → Prop} (key : String)
    (hx : Reads cfg { r with page.text := "" } x post) :
    Reads cfg r (Scripted.capture key x) fun res q => ∃ q', post res.1 q' ∧
      res.2.Spells q'.page.text ∧
      q = { q' with
        page.text := r.page.text
        kept := Function.update q'.kept key q'.page.text } := by
  intro book hbook c hc res c' h
  have hin : Shows cfg { c with output := .empty } { r.page with text := "" } :=
    ⟨hc.config, Output.spells_empty, hc.names⟩
  rw [Scripted.capture_apply] at h
  obtain ⟨ran, hxc, hkept⟩ := map_eq_ok_iff.mp h
  cases hkept
  obtain ⟨_, hpage, q, rfl, hrec, hpost⟩ := hx book ⟨hbook.kept, hbook.trace⟩ _ hin _ _ hxc
  refine ⟨{ q.page with text := r.page.text }, ⟨hpage.config, hc.output, hpage.names⟩,
    { q with
      page.text := r.page.text
      kept := Function.update q.kept key q.page.text },
    rfl, ⟨fun other => ?_, hrec.trace⟩, q, hpost, hpage.output, rfl⟩
  change ((ran.1.2.kept.put key ran.2.output).get? other |>.getD .empty).Spells
    (Function.update q.kept key q.page.text other)
  rw [Shelf.get?_put]
  by_cases ho : other = key
  · rw [if_pos ho, ho, Function.update_self]
    exact hpage.output
  · rw [if_neg ho, Function.update_of_ne ho]
    exact hrec.kept other

/-! ## 6. Acts and steps -/

theorem reads_takeKept (r : Reading) (key : String) :
    Reads cfg r (Scripted.takeKept key) fun o q =>
      o.Spells (r.kept key) ∧ q = { r with kept := Function.update r.kept key "" } := by
  intro book hbook c hc o c' h
  cases h
  refine ⟨r.page, hc, { r with kept := Function.update r.kept key "" }, rfl,
    ⟨fun other => ?_, hbook.trace⟩, hbook.kept key, rfl⟩
  change ((book.kept.erase key).get? other |>.getD .empty).Spells
    (Function.update r.kept key "" other)
  rw [Shelf.get?_erase]
  by_cases ho : other = key
  · rw [if_pos ho, ho, Function.update_self]
    exact Output.spells_empty
  · rw [if_neg ho, Function.update_of_ne ho]
    exact hbook.kept other

theorem follows_emitOutput (page : Page) {o : Output} {s : String} (ho : o.Spells s) :
    Follows cfg page (Emit.emitOutput o) fun _ p => p = page.write s := by
  intro c hc a c' h
  rw [Emit.emitOutput_apply] at h
  cases h
  exact ⟨page.write s, ⟨hc.config, hc.output.append ho, hc.names⟩, rfl⟩

/-- A computation that turns the page, followed by the answer that there is nothing to say. -/
theorem reads_onPage {r : Reading} {x : Emit Unit} {f : Page → Page}
    (hx : Follows cfg r.page x fun _ p => p = f r.page) :
    Reads cfg r (do liftM x; return Answer.nothing) fun answer q =>
      (answer.withoutPieces, q) = (.nothing, r.onPage f) := by
  refine (reads_lift hx).bind fun _ q hq => reads_pure ?_
  rw [hq.2, hq.1]
  rfl

/-- A computation that looks at the state, and answers from what it sees. -/
theorem reads_asking {r : Reading} {f : Context → Answer} {answer : Answer}
    (hf : ∀ c, Shows cfg c r.page → (f c).withoutPieces = answer) :
    Reads cfg r (do return f (← getThe Context)) fun ans q =>
      (ans.withoutPieces, q) = (answer, r) := by
  refine (reads_state r).bind fun c q hq => reads_pure ?_
  rw [hf c hq.1, hq.2]

/-- **An act gives the answer of the reading, and does what the reading does.** -/
theorem reads_act (r : Reading) (a : Act) :
    Reads cfg r a.perform fun answer q => (answer.withoutPieces, q) = act cfg r a := by
  cases a with
  | emit how s => exact reads_onPage (follows_call r.page (.text how s))
  | newline => exact reads_onPage (follows_newline r.page)
  | var v => exact reads_onPage (follows_emitVar r.page v)
  | name v =>
    refine (reads_lift (follows_name r.page v)).bind fun l q hq => reads_pure ?_
    obtain ⟨hl, hq⟩ := hq
    rw [act, ← hl, hq]
    rfl
  | get v => exact reads_asking fun c hc => by rw [NameTable.get?_eq_idxOf?, hc.names]; rfl
  | width => exact reads_asking fun c hc => by rw [hc.config]; rfl
  | config => exact reads_asking fun c hc => by rw [hc.config]; rfl
  | output => exact reads_asking fun c hc => by rw [hc.output.1]; rfl
  | splice key =>
    refine (reads_takeKept r key).bind fun o q hq => ?_
    obtain ⟨ho, rfl⟩ := hq
    exact reads_onPage (follows_emitOutput r.page ho)
  | render n => exact reads_onPage (follows_node cfg n r.page)
  | sep items separator => exact reads_onPage (follows_renderSep cfg separator items r.page)

mutual

/-- **A step does what the reading does.** -/
theorem reads_step (cfg : Config) : ∀ (s : Step) (r : Reading),
    Reads cfg r s.exec fun _ q => q = step cfg s r
  | .act a, r => by
    refine (reads_act r a).bind fun answer q hq => ?_
    refine (reads_note q (.done a.deed) answer).mono fun _ q' hq' => ?_
    rw [hq', step, ← hq]
  | .within scope body, r => by
    refine (reads_within scope (reads_inside scope.deed (reads_steps _ body _))).bind
      fun n q hq => ?_
    obtain ⟨_, ⟨rfl, rfl⟩, rfl⟩ := hq
    exact reads_note _ (.done scope.deed) _
  | .header body, r => by
    by_cases h : cfg.header = true
    · refine (reads_header_on h (reads_inside .header (reads_steps cfg body _))).bind
        fun n q hq => ?_
      obtain ⟨_, rfl, rfl, rfl⟩ := hq
      refine (reads_note _ (.done .header) _).mono fun _ q' hq' => ?_
      rw [hq', step, if_pos h]
      rfl
    · refine (reads_header_off r (eq_false_of_ne_true h)).bind fun n q hq => ?_
      obtain ⟨rfl, rfl⟩ := hq
      refine (reads_note q (.done .header) _).mono fun _ q' hq' => ?_
      rw [hq', step, if_neg h]
      rfl
  | .capture key body, r => by
    refine (reads_capture key (reads_inside .capture (reads_steps cfg body _))).bind
      fun res q hq => ?_
    obtain ⟨_, ⟨hn, rfl⟩, ho, rfl⟩ := hq
    refine (reads_note _ (.done .capture) _).mono fun _ q' hq' => ?_
    rw [hq', hn, ho.1]
    rfl

theorem reads_steps (cfg : Config) : ∀ (ss : List Step) (r : Reading),
    Reads cfg r (Step.execAll ss) fun _ q => q = steps cfg ss r
  | [], _ => reads_pure rfl
  | s :: ss, r => (reads_step cfg s r).seq (reads_steps cfg ss _)

end

/-! ## 7. Whole runs -/

/-- **Steps that do not fail end where the reading ends.** -/
theorem shows_run {cfg : Config} {p : Program} {r : (Unit × Notebook) × Context}
    (h : Step.execAll p .empty ((Context.start cfg).report .entered) = .ok r) :
    Shows cfg r.2 (run cfg p).page ∧ Records r.1.2 (run cfg p) := by
  have hstart : Shows cfg ((Context.start cfg).report .entered) Reading.start.page :=
    ⟨rfl, Output.spells_empty, rfl⟩
  obtain ⟨_, hpage, _, rfl, hrec, rfl⟩ :=
    reads_steps cfg p .start .empty records_empty _ hstart _ _ h
  exact ⟨hpage, hrec⟩

/-- **A run that does not fail agrees with the plain reading**: in the text, in every entry of the
    trace but for the numbers of pieces, in the numbering, and in the texts kept at the end. -/
theorem run_agrees {cfg : Config} {p : Program} {o : Outcome Notebook}
    (h : Program.run cfg p = .ok o) :
    o.text = (run cfg p).page.text ∧
    o.result.trace.toList.map Entry.withoutPieces = (run cfg p).trace ∧
    o.names.entries = (run cfg p).page.names.zipIdx ∧
    ∀ key, ((o.result.kept.get? key).getD .empty).text = (run cfg p).kept key := by
  rw [Program.run_apply] at h
  obtain ⟨res, hx, hfinish⟩ := bind_eq_ok_iff.mp h
  obtain ⟨o', hcontext, rfl⟩ := map_eq_ok_iff.mp hfinish
  obtain ⟨-, rfl⟩ := Context.of_finish_eq_ok hcontext
  obtain ⟨hpage, hrec⟩ := shows_run hx
  refine ⟨hpage.output.1, hrec.trace, ?_, fun key => (hrec.kept key).1⟩
  change res.2.names.entries = _
  rw [NameTable.entries_eq_zipIdx, hpage.names]

/-- A capture made two steps further in, with a variable in it, is written on a later line. -/
theorem run_agrees_spliced :
    let p : Program :=
      [.capture "k" [.within .further [.within .line [.act (.var (.external "M" "f"))]]],
        .within .line [.act (.emit .lent "x"), .act (.splice "k"), .act (.name (.internal "f"))]]
    ∃ o, Program.run .pretty p = .ok o ∧ o.text = "x    _0/*M.f*/\n\n" := by
  intro p
  have hok : (Program.run .pretty p).isOk = true := by decide +kernel
  obtain ⟨o, h⟩ := exists_of_isOk hok
  refine ⟨o, h, ?_⟩
  rw [(run_agrees h).1]
  decide +kernel

end PlainText

end Emission
