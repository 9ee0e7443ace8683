import Emission.Proofs.Persist

/-!
# The forms that are read

Data are read as something: a depth as a natural number, what `External` holds as a module and a name,
and so on (`Shape`). Inside data that are read as one shape there are places at which other data
are read as another (`Place`), and what is read at a place is all that the rest depends on
(`Place.through`). From this the two results on every depth follow, each by one case for each way in
which data can be changed:

* data that differ in nothing but names that no structure has, in how a constructor without fields is
  written and in how a configuration is laid out (`Alike`) are read as the same (`Alike.read_eq`);
* data with a mistake at some place (`Spoilt`) are not read (`Spoilt.read_eq_none`).

Together with what is said of writing and reading back this is `Shape.stored_form`.
-/

namespace Emission

/-! ## 1. Looking up a name -/

namespace Data

variable {key : String} {before after : List (String × Data)}

theorem field?_eq_none {fs : List (String × Data)} (h : ∀ d, (key, d) ∉ fs) :
    field? key fs = none := by
  induction fs with
  | nil => rfl
  | cons field fs ih =>
    obtain ⟨k, d⟩ := field
    have hk : k ≠ key := fun hk => h d (hk ▸ List.mem_cons_self)
    rw [field?, if_neg hk, ih fun e he => h e (List.mem_cons_of_mem _ he)]

/-- The first data with the name are found. -/
theorem field?_append_cons_self (h : ∀ d, (key, d) ∉ before) (d : Data) :
    field? key (before ++ (key, d) :: after) = some d := by
  induction before with
  | nil => rw [List.nil_append, field?, if_pos rfl]
  | cons field before ih =>
    obtain ⟨k, e⟩ := field
    have hk : k ≠ key := fun hk => h e (hk ▸ List.mem_cons_self)
    rw [List.cons_append, field?, if_neg hk, ih fun e he => h e (List.mem_cons_of_mem _ he)]

/-- Data with another name are passed over. -/
theorem field?_append_cons_of_ne {other : String} (h : other ≠ key) (d : Data) :
    field? key (before ++ (other, d) :: after) = field? key (before ++ after) := by
  induction before with
  | nil => rw [List.nil_append, List.nil_append, field?, if_neg h]
  | cons field before ih =>
    obtain ⟨k, e⟩ := field
    rw [List.cons_append, List.cons_append, field?, field?, ih]

end Data

/-! ## 2. Shapes -/

/-- What data can be read as. -/
inductive Shape where
  | natural
  | text
  | truth
  /-- The module and the name of an external variable. -/
  | origin
  | var
  /-- The two strategies of an `append`. -/
  | pair
  | naming
  | config
  | preset
  deriving DecidableEq

namespace Shape

/-- What data of the shape stand for. -/
abbrev Value : Shape → Type
  | natural => Nat
  | text => String
  | truth => Bool
  | origin => String × String
  | var => Var
  | pair => Naming × Naming
  | naming => Naming
  | config => Config
  | preset => Preset

/-- The fields of a structure with their shapes, in the order of the structure. -/
def fields : Shape → List (String × Shape)
  | origin => [("module", text), ("name", text)]
  | pair => [("back", naming), ("front", naming)]
  | config =>
    [("indent_level", natural), ("indent_step", natural), ("indent_unit", text),
      ("newlines", truth), ("header", truth), ("naming", naming)]
  | _ => []

/-- The constructors that hold something, with the shape of it. -/
def boxes : Shape → List (String × Shape)
  | var => [("External", origin), ("Internal", text), ("Foreign", text)]
  | naming => [("Comment", naming), ("CommentExternal", naming), ("Append", pair)]
  | _ => []

/-- The constructors without fields. -/
def tags : Shape → List String
  | naming => ["Qualified", "Unique"]
  | preset => ["Pseudo", "Pretty", "Compact"]
  | _ => []

/-- What the data stand for, read as data of the shape. -/
def read : (s : Shape) → Data → Option s.Value
  | natural, d => d.natural?
  | text, d => d.str?
  | truth, d => d.bool?
  | origin, .obj fields => do
    let module ← (← Data.field? "module" fields).str?
    let name ← (← Data.field? "name" fields).str?
    return (module, name)
  | origin, _ => none
  | var, d => ofData? d
  | pair, .obj fields => do
    let back ← ofData? (← Data.field? "back" fields)
    let front ← ofData? (← Data.field? "front" fields)
    return (back, front)
  | pair, _ => none
  | naming, d => ofData? d
  | config, d => ofData? d
  | preset, d => ofData? d

/-! ## 3. Fields -/

/-- What the fields of a structure stand for, one after another. -/
abbrev Values : List (String × Shape) → Type
  | [] => Unit
  | (_, s) :: parts => s.Value × Values parts

/-- Reads the fields of a structure, each from the data that have its name. -/
def readParts : (parts : List (String × Shape)) → List (String × Data) → Option (Values parts)
  | [], _ => some ()
  | (key, s) :: parts, fields => do
    let x ← s.read (← Data.field? key fields)
    let xs ← readParts parts fields
    return (x, xs)

section

variable {s : Shape} {parts : List (String × Shape)} {fs gs : List (String × Data)}

/-- **A structure is read from its fields.** -/
theorem exists_read_obj (hs : s.fields ≠ []) :
    ∃ build : Values s.fields → s.Value,
      ∀ fs, s.read (.obj fs) = (readParts s.fields fs).map build := by
  cases s with
  | origin =>
    refine ⟨fun ⟨module, name, _⟩ => (module, name), fun fs => ?_⟩
    simp only [read, readParts, fields, Option.bind_eq_bind, Option.pure_def, Option.map_bind,
      Option.map_some, Option.bind_assoc, Option.bind_some, Function.comp_def]
  | pair =>
    refine ⟨fun ⟨back, front, _⟩ => (back, front), fun fs => ?_⟩
    simp only [read, readParts, fields, Option.bind_eq_bind, Option.pure_def, Option.map_bind,
      Option.map_some, Option.bind_assoc, Option.bind_some, Function.comp_def]
  | config =>
    refine ⟨fun ⟨level, step, unit, newlines, header, strategy, _⟩ =>
      ⟨level, step, unit, newlines, header, strategy⟩, fun fs => ?_⟩
    simp only [read, ofData?, Config.ofData?, readParts, fields]
    -- The names are looked up before anything is read, so it is by the names that the cases go.
    cases Data.field? "indent_level" fs with
    | none => rfl
    | some level => ?_
    cases Data.field? "indent_step" fs with
    | none => simp
    | some step => ?_
    cases Data.field? "indent_unit" fs with
    | none => simp
    | some unit => ?_
    cases Data.field? "newlines" fs with
    | none => simp
    | some newlines => ?_
    cases Data.field? "header" fs with
    | none => simp
    | some header => ?_
    cases Data.field? "naming" fs with
    | none => simp
    | some strategy =>
      simp only [Config.ofParts?, Option.bind_eq_bind, Option.pure_def, Option.map_bind,
        Option.map_some, Option.bind_assoc, Option.bind_some, Function.comp_def]
  | _ => exact absurd rfl hs

/-- What is read depends on nothing but the data that have the names of the fields. -/
theorem readParts_congr (h : ∀ part ∈ parts, Data.field? part.1 fs = Data.field? part.1 gs) :
    readParts parts fs = readParts parts gs := by
  induction parts with
  | nil => rfl
  | cons part parts ih =>
    obtain ⟨key, s⟩ := part
    rw [readParts, readParts, h (key, s) List.mem_cons_self,
      ih fun part hpart => h part (List.mem_cons_of_mem _ hpart)]

/-- Where a name is missing, nothing is read. -/
theorem readParts_eq_none {key : String} (hpart : (key, s) ∈ parts)
    (hkey : Data.field? key fs = none) : readParts parts fs = none := by
  induction parts with
  | nil => cases hpart
  | cons part parts ih =>
    obtain ⟨k, t⟩ := part
    rw [readParts]
    rcases List.mem_cons.mp hpart with hhead | htail
    · cases hhead
      rw [hkey]
      rfl
    · rw [ih htail]
      simp

theorem read_obj_congr (hs : s.fields ≠ [])
    (h : ∀ part ∈ s.fields, Data.field? part.1 fs = Data.field? part.1 gs) :
    s.read (.obj fs) = s.read (.obj gs) := by
  obtain ⟨build, hread⟩ := exists_read_obj hs
  rw [hread, hread, readParts_congr h]

end

/-- **A configuration is read from an array as from an object with the names of the fields.** -/
theorem read_config_arr {items : List Data} (h : items.length = config.fields.length) :
    config.read (.arr items) = config.read (.obj ((config.fields.map Prod.fst).zip items)) := by
  match items, h with
  | [level, step, unit, newlines, header, strategy], _ => rfl

/-! ## 4. Places -/

/-- `g` reads its data by way of `inner`: what it gives depends on nothing but what `inner` reads, and
    it gives nothing where `inner` reads nothing. -/
def Through (inner : Shape) {β : Type} (g : Data → Option β) : Prop :=
  ∃ go : inner.Value → Option β, ∀ d, g d = (inner.read d).bind go

section

variable {inner : Shape} {β γ : Type} {g : Data → Option β}

theorem Through.eq_none (h : Through inner g) {d : Data} (hd : inner.read d = none) :
    g d = none := by
  obtain ⟨go, hgo⟩ := h
  rw [hgo, hd, Option.bind_none]

theorem Through.congr (h : Through inner g) {d e : Data} (hde : inner.read d = inner.read e) :
    g d = g e := by
  obtain ⟨go, hgo⟩ := h
  rw [hgo, hgo, hde]

theorem Through.map (h : Through inner g) (f : β → γ) : Through inner fun d => (g d).map f := by
  obtain ⟨go, hgo⟩ := h
  refine ⟨fun x => (go x).map f, fun d => ?_⟩
  show (g d).map f = _
  rw [hgo, Option.map_bind]
  rfl

end

/-- `Place inner outer fill`: in data that are read as `outer` there can be data that are read as
    `inner`, and `fill` puts them there. -/
inductive Place : (inner outer : Shape) → (fill : Data → Data) → Prop
  /-- In the constructor `tag`. -/
  | box {inner outer : Shape} {tag : String} (h : (tag, inner) ∈ outer.boxes) :
    Place inner outer fun d => .obj [(tag, d)]
  /-- In the field `key`; of several with this name the first is read. -/
  | field {inner outer : Shape} {key : String} {before after : List (String × Data)}
    (h : (key, inner) ∈ outer.fields) (hbefore : ∀ d, (key, d) ∉ before) :
    Place inner outer fun d => .obj (before ++ (key, d) :: after)
  /-- At its place in the array of the fields of a configuration. -/
  | item {inner : Shape} {key : String} {before after : List Data}
    (h : config.fields[before.length]? = some (key, inner))
    (hafter : before.length + 1 + after.length = config.fields.length) :
    Place inner config fun d => .arr (before ++ d :: after)

theorem nodup_fields (s : Shape) : (s.fields.map Prod.fst).Nodup := by
  cases s <;> decide

section

variable {inner outer : Shape} {key : String} {before after : List (String × Data)}

/-- **The fields of a structure are read by way of each of them.** -/
theorem readParts_through {parts : List (String × Shape)} (hnodup : (parts.map Prod.fst).Nodup)
    (hpart : (key, inner) ∈ parts) (hbefore : ∀ d, (key, d) ∉ before) :
    Through inner fun d => readParts parts (before ++ (key, d) :: after) := by
  induction parts with
  | nil => cases hpart
  | cons part parts ih =>
    obtain ⟨k, s⟩ := part
    obtain ⟨hk, hnodup⟩ := List.nodup_cons.mp hnodup
    rcases List.mem_cons.mp hpart with hhead | htail
    · cases hhead
      have hrest : ∀ d, readParts parts (before ++ (key, d) :: after) =
          readParts parts (before ++ after) := fun d =>
        readParts_congr fun part hpart =>
          Data.field?_append_cons_of_ne (fun h => hk (List.mem_map.mpr ⟨part, hpart, h.symm⟩)) d
      refine ⟨fun x => (readParts parts (before ++ after)).bind fun xs => some (x, xs), fun d => ?_⟩
      show readParts ((key, inner) :: parts) (before ++ (key, d) :: after) = _
      rw [readParts, Data.field?_append_cons_self hbefore, hrest]
      rfl
    · obtain ⟨go, hgo⟩ := ih hnodup htail
      have hgo : ∀ d, readParts parts (before ++ (key, d) :: after) = _ := hgo
      have hne : key ≠ k := fun h => hk (List.mem_map.mpr ⟨_, htail, h⟩)
      refine ⟨fun y => (Data.field? k (before ++ after)).bind fun e =>
        (s.read e).bind fun x => (go y).bind fun xs => some (x, xs), fun d => ?_⟩
      show readParts ((k, s) :: parts) (before ++ (key, d) :: after) = _
      rw [readParts, Data.field?_append_cons_of_ne hne, hgo d]
      cases inner.read d <;> simp

theorem read_field_through (h : (key, inner) ∈ outer.fields) (hbefore : ∀ d, (key, d) ∉ before) :
    Through inner fun d => outer.read (.obj (before ++ (key, d) :: after)) := by
  obtain ⟨build, hread⟩ := exists_read_obj (List.ne_nil_of_mem h)
  simp only [hread]
  exact (readParts_through outer.nodup_fields h hbefore).map build

theorem read_box_through {tag : String} (h : (tag, inner) ∈ outer.boxes) :
    Through inner fun d => outer.read (.obj [(tag, d)]) := by
  cases outer with
  | var =>
    simp only [boxes, List.mem_cons, Prod.mk.injEq, List.not_mem_nil, or_false] at h
    rcases h with ⟨rfl, rfl⟩ | ⟨rfl, rfl⟩ | ⟨rfl, rfl⟩
    · refine ⟨fun part => some (.external part.1 part.2), fun d => ?_⟩
      cases d with
      | obj fs => simp [read, ofData?, Var.ofData?, Option.bind_assoc]
      | _ => rfl
    · refine ⟨fun name => some (.internal name), fun d => ?_⟩
      cases d <;> rfl
    · refine ⟨fun name => some (.foreign name), fun d => ?_⟩
      cases d <;> rfl
  | naming =>
    simp only [boxes, List.mem_cons, Prod.mk.injEq, List.not_mem_nil, or_false] at h
    rcases h with ⟨rfl, rfl⟩ | ⟨rfl, rfl⟩ | ⟨rfl, rfl⟩
    · refine ⟨some ∘ .comment, fun d => ?_⟩
      simp [read, ofData?, Naming.ofData?, Option.map_eq_bind]
    · refine ⟨some ∘ .commentExternal, fun d => ?_⟩
      simp [read, ofData?, Naming.ofData?, Option.map_eq_bind]
    · refine ⟨fun part => some (.append part.1 part.2), fun d => ?_⟩
      cases d with
      | obj fs =>
        simp [read, ofData?, Naming.ofData?, Naming.ofField?_eq, Option.bind_assoc]
      | _ => simp [read, ofData?, Naming.ofData?]
  | _ => cases h

/-- An array is read as the object with its items under the names of the fields, where the place of
    the item is that of a field. -/
theorem read_item_through {before after : List Data}
    (h : config.fields[before.length]? = some (key, inner))
    (hafter : before.length + 1 + after.length = config.fields.length) :
    Through inner fun d => config.read (.arr (before ++ d :: after)) := by
  obtain ⟨hlt, hget⟩ := List.getElem?_eq_some_iff.mp h
  obtain ⟨front, rear, hfields, hfront⟩ : ∃ front rear,
      config.fields = front ++ (key, inner) :: rear ∧ front.length = before.length :=
    ⟨config.fields.take before.length, config.fields.drop (before.length + 1),
      by rw [← hget, List.getElem_cons_drop, List.take_append_drop],
      List.length_take_of_le (Nat.le_of_lt hlt)⟩
  have hread : ∀ d, config.read (.arr (before ++ d :: after)) =
      config.read (.obj ((front.map Prod.fst).zip before ++
        (key, d) :: (rear.map Prod.fst).zip after)) := fun d => by
    have hlength : (before ++ d :: after).length = config.fields.length := by
      rw [← hafter, List.length_append, List.length_cons]
      omega
    rw [read_config_arr hlength, hfields, List.map_append, List.map_cons,
      List.zip_append (by rw [List.length_map, hfront]), List.zip_cons_cons]
  have hkey : key ∉ front.map Prod.fst := fun hkey => by
    have hnodup := config.nodup_fields
    rw [hfields, List.map_append, List.map_cons] at hnodup
    exact (List.nodup_append.mp hnodup).2.2 key hkey key List.mem_cons_self rfl
  simp only [hread]
  exact read_field_through (List.mem_of_getElem? h) fun d hd => hkey (List.of_mem_zip hd).1

/-- **What surrounds a place is read by way of what is there.** -/
theorem Place.through {fill : Data → Data} (p : Place inner outer fill) :
    Through inner fun d => outer.read (fill d) := by
  cases p with
  | box h => exact read_box_through h
  | field h hbefore => exact read_field_through h hbefore
  | item h hafter => exact read_item_through h hafter

end

/-! ## 5. Data that are read as the same -/

/-- `Alike s d e`: read as data of the shape `s`, `d` and `e` differ in nothing but what has no meaning,
    at any number of places. -/
inductive Alike : Shape → Data → Data → Prop
  | refl {s : Shape} {d : Data} : Alike s d d
  | symm {s : Shape} {d e : Data} (h : Alike s d e) : Alike s e d
  | trans {s : Shape} {d e f : Data} (h : Alike s d e) (h' : Alike s e f) : Alike s d f
  /-- At a place inside. -/
  | inside {inner outer : Shape} {fill : Data → Data} {d e : Data} (p : Place inner outer fill)
    (h : Alike inner d e) : Alike outer (fill d) (fill e)
  /-- A structure may have data under a name that is not the name of a field. -/
  | unknown {s : Shape} {key : String} {d : Data} {before after : List (String × Data)}
    (hs : s.fields ≠ []) (hkey : ∀ inner, (key, inner) ∉ s.fields) :
    Alike s (.obj (before ++ after)) (.obj (before ++ (key, d) :: after))
  /-- A constructor without fields may stand before a null. -/
  | tag {s : Shape} {tag : String} (h : tag ∈ s.tags) : Alike s (.str tag) (.obj [(tag, .null)])
  /-- The fields of a configuration may be put into an array, in the order of the structure. -/
  | layout {fs : List (String × Data)} {items : List Data}
    (h : config.fields.map (fun part => Data.field? part.1 fs) = items.map some) :
    Alike config (.obj fs) (.arr items)

theorem read_tag {s : Shape} {tag : String} (h : tag ∈ s.tags) :
    s.read (.str tag) = s.read (.obj [(tag, .null)]) := by
  cases s with
  | naming =>
    simp only [tags, List.mem_cons, List.not_mem_nil, or_false] at h
    rcases h with rfl | rfl <;> simp [read, ofData?, Naming.ofData?]
  | preset =>
    simp only [tags, List.mem_cons, List.not_mem_nil, or_false] at h
    rcases h with rfl | rfl | rfl <;> rfl
  | _ => cases h

theorem read_layout {fs : List (String × Data)} {items : List Data}
    (h : config.fields.map (fun part => Data.field? part.1 fs) = items.map some) :
    config.read (.obj fs) = config.read (.arr items) := by
  have hlength : config.fields.length = items.length := by
    simpa using congrArg List.length h
  match items, hlength with
  | [level, step, unit, newlines, header, strategy], _ =>
    simp only [fields, List.map_cons, List.map_nil, List.cons.injEq, and_true] at h
    obtain ⟨hlevel, hstep, hunit, hnewlines, hheader, hstrategy⟩ := h
    simp only [read, ofData?, Config.ofData?, hlevel, hstep, hunit, hnewlines, hheader, hstrategy]
    rfl

/-- **Data that are alike are read as the same, or neither is read.** -/
theorem Alike.read_eq {s : Shape} {d e : Data} (h : Alike s d e) : s.read d = s.read e := by
  induction h with
  | refl => rfl
  | symm _ ih => exact ih.symm
  | trans _ _ ih ih' => exact ih.trans ih'
  | inside p _ ih => exact p.through.congr ih
  | @unknown s key d before after hs hkey =>
    refine read_obj_congr hs fun part hpart => ?_
    have hne : key ≠ part.1 := fun h => hkey part.2 (h ▸ hpart)
    exact (Data.field?_append_cons_of_ne hne d).symm
  | tag h => exact read_tag h
  | layout h => exact read_layout h

/-! ## 6. Data that are not read -/

/-- `Spoilt s d`: read as data of the shape `s`, `d` have a mistake at some place that is read. -/
inductive Spoilt : Shape → Data → Prop
  /-- At a place inside. -/
  | inside {inner outer : Shape} {fill : Data → Data} {d : Data} (p : Place inner outer fill)
    (h : Spoilt inner d) : Spoilt outer (fill d)
  /-- The name of a field is missing. -/
  | missing {s inner : Shape} {key : String} {fs : List (String × Data)}
    (h : (key, inner) ∈ s.fields) (hkey : ∀ d, (key, d) ∉ fs) : Spoilt s (.obj fs)
  /-- There is no natural number that is stored. -/
  | outside {d : Data} (h : ∀ n : Nat, n ≤ Data.maxNatural → d ≠ .int n) : Spoilt natural d
  /-- There is no constructor, or there are several. -/
  | keys {s : Shape} {fs : List (String × Data)} (hs : s.boxes ≠ [] ∨ s.tags ≠ [])
    (h : fs.length ≠ 1) : Spoilt s (.obj fs)
  /-- There is an array, and it is not that of all the fields of a configuration. -/
  | array {s : Shape} {items : List Data} (h : s = config → items.length ≠ s.fields.length) :
    Spoilt s (.arr items)

theorem read_keys {s : Shape} {fs : List (String × Data)} (hs : s.boxes ≠ [] ∨ s.tags ≠ [])
    (h : fs.length ≠ 1) : s.read (.obj fs) = none := by
  match fs with
  | [_] => exact absurd rfl h
  | [] | _ :: _ :: _ =>
    cases s with
    | var => simp [read, ofData?, Var.ofData?]
    | naming => simp [read, ofData?, Naming.ofData?]
    | preset => simp [read, ofData?, Preset.ofData?, Data.tag?]
    | _ => rcases hs with hs | hs <;> exact absurd rfl hs

theorem read_array {s : Shape} {items : List Data}
    (h : s = config → items.length ≠ s.fields.length) : s.read (.arr items) = none := by
  cases s with
  | config =>
    simp only [read, ofData?]
    unfold Config.ofData?
    split
    · rename_i heq
      cases heq
    · rename_i heq
      cases heq
      exact absurd rfl (h rfl)
    · rfl
  | naming => simp [read, ofData?, Naming.ofData?]
  | _ => rfl

/-- **Data with a mistake at any place that is read are not read.** -/
theorem Spoilt.read_eq_none {s : Shape} {d : Data} (h : Spoilt s d) : s.read d = none := by
  induction h with
  | inside p _ ih => exact p.through.eq_none ih
  | missing h hkey =>
    obtain ⟨build, hread⟩ := exists_read_obj (List.ne_nil_of_mem h)
    rw [hread, readParts_eq_none h (Data.field?_eq_none hkey), Option.map_none]
  | @outside d h =>
    cases hd : d.natural? with
    | none => exact hd
    | some n =>
      obtain ⟨hn, rfl⟩ := Data.natural?_eq_some_iff.mp hd
      exact absurd rfl (h n hn)
  | keys hs h => exact read_keys hs h
  | array h => exact read_array h

/-! ## 7. The stored form -/

/-- **Values are read back from their stored form, and from every other form of theirs; what has a
    mistake in it is not read.** Variables, strategies and presets, and configurations whose depths are
    natural numbers that are stored, are read back as they were written, no two are written alike, and
    what was read can be written and read once more. At every depth, names that no structure has, the
    two ways to write a constructor without fields and the two layouts of a configuration make no
    difference to what is read. A missing name, a natural number that is not stored, a constructor that
    is not the only one, or an array where none can be, at any place that is read, means that the whole
    is not read. -/
theorem stored_form :
    Faithful Var (fun _ => True) ∧ Faithful Naming (fun _ => True) ∧
      Faithful Preset (fun _ => True) ∧ Faithful Config Config.Fits ∧
      (∀ (s : Shape) (d e : Data), Alike s d e → s.read d = s.read e) ∧
      (∀ (s : Shape) (d : Data), Spoilt s d → s.read d = none) := by
  refine ⟨?_, ?_, ?_, ?_, fun _ _ _ => Alike.read_eq, fun _ _ => Spoilt.read_eq_none⟩
  · exact .of_read_back (fun v _ => v.ofData?_toData) fun _ _ _ => trivial
  · exact .of_read_back (fun n _ => n.ofData?_toData) fun _ _ _ => trivial
  · exact .of_read_back (fun p _ => p.ofData?_toData) fun _ _ _ => trivial
  · exact .of_read_back (fun _ hc => Config.ofData?_toData hc) fun _ _ =>
      Config.fits_of_ofData?_eq_some

/-- A configuration at the greatest depth is read from an array as well, with a name that no strategy
    has and a constructor before a null inside its strategy; but not without one of the two strategies
    that are appended. -/
theorem stored_form_nested :
    let c : Config := ⟨18446744073709551615, 4, "\t", true, false, .pretty⟩
    let array (parts : List (String × Data)) : Data :=
      .arr [.int 18446744073709551615, .int 4, .str "\t", .bool true, .bool false,
        .obj [("Append", .obj parts)]]
    let back : Data := .obj [("CommentExternal", .obj [("Qualified", .null)])]
    ofData? (toData c) = some c ∧
      ofData? (array [("back", back), ("middle", .int (-1)), ("front", .str "Unique")]) = some c ∧
      (ofData? (array [("back", back), ("middle", .int (-1))]) : Option Config) = none := by
  intro c array back
  obtain ⟨-, -, -, hconfig, halike, hspoilt⟩ := stored_form
  have hback := hconfig.read_back c ⟨by decide, by decide⟩
  have hitem : Place naming config fun d =>
      .arr ([.int 18446744073709551615, .int 4, .str "\t", .bool true, .bool false] ++ d :: []) :=
    .item rfl rfl
  have hbox : Place pair naming fun d => .obj [("Append", d)] := .box (by decide)
  refine ⟨hback, ?_, ?_⟩
  · have hlayout : Alike config (toData c)
        (array [("back", .obj [("CommentExternal", .str "Qualified")]), ("front", .str "Unique")]) :=
      .layout rfl
    have hfield : Place naming pair fun d => .obj ([] ++ ("back", d) :: [("front", .str "Unique")]) :=
      .field (by decide) (by simp)
    have hcomment : Place naming naming fun d => .obj [("CommentExternal", d)] := .box (by decide)
    have htag : Alike naming (.str "Qualified") (.obj [("Qualified", .null)]) := .tag (by decide)
    have hunknown : Alike pair (.obj ([("back", back)] ++ [("front", .str "Unique")]))
        (.obj ([("back", back)] ++ ("middle", .int (-1)) :: [("front", .str "Unique")])) :=
      .unknown (by decide) (by simp [fields])
    have hpair := (Alike.inside hfield (.inside hcomment htag)).trans hunknown
    have hwhole := hlayout.trans (.inside hitem (.inside hbox hpair))
    exact (halike config _ _ hwhole).symm.trans hback
  · have hmissing : Spoilt pair (.obj [("back", back), ("middle", .int (-1))]) :=
      .missing (show ("front", naming) ∈ fields pair by decide) (by simp)
    exact hspoilt config _ (.inside hitem (.inside hbox hmissing))

end Shape

end Emission
