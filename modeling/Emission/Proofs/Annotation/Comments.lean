import Emission.Proofs.Annotation

/-!
# Labels without their comments

The comment that `pretty` puts after a label holds the module and the name as they are, so it ends where
the first `*/` stands, be it the one put there to close it or one of theirs. This file says when the
label that is left, all comments deleted, is the label under `compact`.

* `Text.uncomment` deletes comments, each from a `/*` to the first `*/` after it; what it leaves nothing
  of are the rows of comments (`Text.uncomment_eq_nil_iff`).
* What is left of a label under `pretty` is the label under `compact`, and after it what is left of the
  comment (`Naming.uncommented_label_pretty`).
* So the two labels agree if neither the module nor the name has a `*/` (`Naming.uncommented_pretty_iff`).
  They need not agree otherwise: text from the module or the name can get out of the comment
  (`Naming.uncommented_pretty_escaping`).
-/

namespace Emission

namespace Text

/-! ## 1. Comments in a text -/

/-- What comes after the first `*/`, if there is one. -/
def afterClose? : List Char → Option (List Char)
  | '*' :: '/' :: cs => some cs
  | _ :: cs => afterClose? cs
  | [] => none

theorem length_lt_of_afterClose? {cs rest : List Char} (h : afterClose? cs = some rest) :
    rest.length < cs.length := by
  fun_induction afterClose? cs with
  | case1 cs =>
    cases h
    simp only [List.length_cons]
    omega
  | case2 c cs _ ih =>
    have hlt := ih h
    simp only [List.length_cons]
    omega
  | case3 => cases h

/-- The text without its comments: each goes from a `/*` to the first `*/` after it, and a `/*` with no
    `*/` after it begins none. -/
def uncomment : List Char → List Char
  | '/' :: '*' :: cs =>
    match _hclose : afterClose? cs with
    | some rest => uncomment rest
    | none => '/' :: '*' :: cs
  | c :: cs => c :: uncomment cs
  | [] => []
termination_by cs => cs.length
decreasing_by
  · have hlt := length_lt_of_afterClose? _hclose
    simp only [List.length_cons]
    omega
  · simp only [List.length_cons]
    omega

/-- The text without its comments. -/
def uncommented (s : String) : String :=
  String.ofList (uncomment s.toList)

/-- The text has a `*/`. -/
def Closes (s : String) : Prop :=
  ['*', '/'] <:+: s.toList

instance (s : String) : Decidable (Closes s) :=
  inferInstanceAs (Decidable (['*', '/'] <:+: s.toList))

/-- The text is comments and nothing else, one after the other. -/
def OnlyComments (s : String) : Prop :=
  ∃ bodies : List (List Char), (∀ body ∈ bodies, ¬ ['*', '/'] <:+: body) ∧
    s.toList = bodies.flatMap fun body => '/' :: '*' :: (body ++ ['*', '/'])

/-! ## 2. Where a comment ends -/

/-- **A comment ends at the mark that closes it** if there is none before. The last character before
    the mark may be a star, and the first a slash: they are no part of a mark. -/
theorem afterClose?_append {body : List Char} (h : ¬ ['*', '/'] <:+: body) (rest : List Char) :
    afterClose? (body ++ '*' :: '/' :: rest) = some rest := by
  induction body with
  | nil => rfl
  | cons c body ih =>
    have hbody : ¬ ['*', '/'] <:+: body := fun hi => h (List.infix_cons_iff.mpr (.inr hi))
    have hstep : ∀ cs, c = '*' → body ++ '*' :: '/' :: rest = '/' :: cs → False := by
      intro cs hc hcs
      cases body with
      | nil => cases hcs
      | cons d body =>
        rw [List.cons_append, List.cons.injEq] at hcs
        rw [hc, hcs.1] at h
        exact h (List.infix_cons_iff.mpr (.inl (List.prefix_append ['*', '/'] body)))
    rw [List.cons_append, afterClose?.eq_2 _ _ hstep]
    exact ih hbody

/-- Where the first `*/` is found, there is none before. -/
theorem exists_of_afterClose? {cs rest : List Char} (h : afterClose? cs = some rest) :
    ∃ body, ¬ ['*', '/'] <:+: body ∧ cs = body ++ '*' :: '/' :: rest := by
  fun_induction afterClose? cs with
  | case1 cs =>
    cases h
    exact ⟨[], by decide, rfl⟩
  | case2 c cs hstep ih =>
    obtain ⟨body, hbody, rfl⟩ := ih h
    refine ⟨c :: body, fun hi => ?_, rfl⟩
    rcases List.infix_cons_iff.mp hi with hprefix | hinfix
    · obtain ⟨tail, htail⟩ := hprefix
      rw [List.cons_append, List.cons_append, List.nil_append, List.cons.injEq] at htail
      refine hstep (tail ++ '*' :: '/' :: rest) htail.1.symm ?_
      rw [← htail.2]
      rfl
    · exact hbody hinfix
  | case3 => cases h

theorem uncomment_nil : uncomment [] = [] := by
  rw [uncomment]

theorem uncomment_comment {body : List Char} (h : ¬ ['*', '/'] <:+: body) (rest : List Char) :
    uncomment ('/' :: '*' :: (body ++ '*' :: '/' :: rest)) = uncomment rest := by
  rw [uncomment]
  split
  · rename_i rest' hclose
    rw [afterClose?_append h] at hclose
    rw [Option.some.inj hclose]
  · rename_i hclose
    rw [afterClose?_append h] at hclose
    cases hclose

/-- A text that has no slash is left as it is. -/
theorem uncomment_append {cs : List Char} (h : '/' ∉ cs) (rest : List Char) :
    uncomment (cs ++ rest) = cs ++ uncomment rest := by
  induction cs with
  | nil => rfl
  | cons c cs ih =>
    rw [List.mem_cons, not_or] at h
    have hc : ∀ ds, c = '/' → cs ++ rest = '*' :: ds → False := fun ds hc => absurd hc.symm h.1
    rw [List.cons_append, uncomment.eq_2 _ _ hc, ih h.2]
    rfl

/-- **Nothing is left of a text exactly if it is a row of comments.** -/
theorem uncomment_eq_nil_iff (cs : List Char) :
    uncomment cs = [] ↔ ∃ bodies : List (List Char), (∀ body ∈ bodies, ¬ ['*', '/'] <:+: body) ∧
      cs = bodies.flatMap fun body => '/' :: '*' :: (body ++ ['*', '/']) := by
  constructor
  · intro h
    fun_induction uncomment cs with
    | case1 cs rest hclose ih =>
      obtain ⟨body, hbody, rfl⟩ := exists_of_afterClose? hclose
      obtain ⟨bodies, hbodies, rfl⟩ := ih h
      exact ⟨body :: bodies, List.forall_mem_cons.mpr ⟨hbody, hbodies⟩, by simp⟩
    | case2 | case3 => cases h
    | case4 => exact ⟨[], by simp, rfl⟩
  · rintro ⟨bodies, hbodies, rfl⟩
    induction bodies with
    | nil => exact uncomment_nil
    | cons body bodies ih =>
      obtain ⟨hbody, hrest⟩ := List.forall_mem_cons.mp hbodies
      have hrow := uncomment_comment hbody
        (bodies.flatMap fun body => '/' :: '*' :: (body ++ ['*', '/']))
      rw [ih hrest] at hrow
      simpa using hrow

theorem uncommented_eq_empty_iff (s : String) : uncommented s = "" ↔ OnlyComments s := by
  rw [OnlyComments, ← uncomment_eq_nil_iff, uncommented, ← String.toList_inj, String.toList_ofList]
  rfl

/-- A full stop is no part of a `*/`. -/
theorem infix_of_infix_append_dot {cs ds : List Char} (h : ['*', '/'] <:+: cs ++ '.' :: ds) :
    ['*', '/'] <:+: cs ∨ ['*', '/'] <:+: ds := by
  induction cs with
  | nil =>
    rcases List.infix_cons_iff.mp h with hprefix | hinfix
    · obtain ⟨tail, htail⟩ := hprefix
      cases htail
    · exact .inr hinfix
  | cons c cs ih =>
    rcases List.infix_cons_iff.mp h with hprefix | hinfix
    · obtain ⟨tail, htail⟩ := hprefix
      cases cs with
      | nil => cases htail
      | cons d cs =>
        cases htail
        exact .inl (List.prefix_append ['*', '/'] cs).isInfix
    · rcases ih hinfix with hcs | hds
      · exact .inl (List.infix_cons_iff.mpr (.inr hcs))
      · exact .inr hds

end Text

/-! ## 3. Labels -/

/-- A label has no slash. -/
theorem Label.slash_notMem_ofNat (n : Nat) : '/' ∉ (ofNat n).toList := by
  rw [toList_ofNat, List.mem_cons, not_or]
  refine ⟨by decide, fun hmem => ?_⟩
  have halnum := isAlphanum_numeral n '/' hmem
  revert halnum
  decide

/-- **A comment is one comment** if neither the module nor the name can close it. -/
theorem Var.onlyComments_comment {v : Var}
    (h : ∀ module name, v = .external module name → ¬ Text.Closes module ∧ ¬ Text.Closes name) :
    Text.OnlyComments v.comment := by
  cases v with
  | external module name =>
    obtain ⟨hmodule, hname⟩ := h module name rfl
    refine ⟨[module.toList ++ '.' :: name.toList], fun body hbody hinfix => ?_, ?_⟩
    · rw [List.mem_singleton.mp hbody] at hinfix
      exact (Text.infix_of_infix_append_dot hinfix).elim hmodule hname
    · simp [comment, commentOpen, commentClose]
  | internal | foreign => exact ⟨[], by simp, rfl⟩

namespace Naming

section

variable {v : Var} {l : Ledger} {r r' : String × Ledger}

theorem fst_label_compact (hv : v.isForeign = false) (h : compact.label v l = .ok r) :
    r.1 = Label.ofNat (l.table.vars.idxOf v) := by
  rw [label_apply] at h
  obtain ⟨-, -, rfl⟩ := map_eq_ok_iff.mp h
  exact spelling_unique hv _

/-- **A label under `pretty` is the one under `compact` with the comment after it**, and leaves the same
    ledger behind. -/
theorem label_pretty (v : Var) (l : Ledger) :
    pretty.label v l = (compact.label v l).map fun r => (r.1 ++ v.comment, r.2) := by
  rw [label_apply, label_apply, room_congr (numbers_pretty v), register_congr (numbers_pretty v),
    spelling_pretty]
  cases compact.room v l.table <;> rfl

/-- **What is left of a label with its comment** is the label, and what is left of the comment. -/
theorem uncommented_label_pretty (hv : v.isForeign = false) (h : compact.label v l = .ok r) :
    Text.uncommented (r.1 ++ v.comment) = r.1 ++ Text.uncommented v.comment := by
  rw [fst_label_compact hv h, Text.uncommented, String.toList_append,
    Text.uncomment_append (Label.slash_notMem_ofNat _), String.ofList_append, String.ofList_toList]
  rfl

end

/-- **When a label under `pretty` is the label under `compact` with comments only.** From any ledger the
    two are computed alike, or both fail for the same reason. For a variable that is not foreign, the
    label under `compact` is an identifier. The label under `pretty`, without its comments, is that
    identifier exactly if what was put after it is comments and nothing else. It is if neither the module
    nor the name of the variable has a `*/`. -/
theorem uncommented_pretty_iff {v : Var} (hv : v.isForeign = false) (l : Ledger) :
    (∀ e, pretty.label v l = .error e ↔ compact.label v l = .error e) ∧
    ∀ r r', compact.label v l = .ok r → pretty.label v l = .ok r' →
      r'.2 = r.2 ∧ Label.Form r.1 ∧
      (Text.uncommented r'.1 = r.1 ↔ Text.OnlyComments v.comment) ∧
      ((∀ module name, v = .external module name →
          ¬ Text.Closes module ∧ ¬ Text.Closes name) →
        Text.uncommented r'.1 = r.1) := by
  refine ⟨fun e => by rw [label_pretty, map_eq_error_iff], fun r r' h h' => ?_⟩
  rw [label_pretty, h] at h'
  cases h'
  have hiff : Text.uncommented (r.1 ++ v.comment) = r.1 ↔ Text.OnlyComments v.comment := by
    rw [uncommented_label_pretty hv h, ← Text.uncommented_eq_empty_iff, String.append_eq_left_iff]
  refine ⟨rfl, ?_, hiff, fun hclose => hiff.mpr (Var.onlyComments_comment hclose)⟩
  rw [fst_label_compact hv h]
  exact Label.form_ofNat _

/-- The marks of comments may touch parts of marks in the module and the name. -/
theorem uncommented_pretty_touching :
    let v : Var := .external "/" "*"
    v.isForeign = false ∧ ∃ r r', compact.label v ⟨.empty, #[]⟩ = .ok r ∧
      pretty.label v ⟨.empty, #[]⟩ = .ok r' ∧ r'.1 = "_0/*/.**/" ∧ Text.uncommented r'.1 = r.1 := by
  have hlabels := (uncommented_pretty_iff (v := .external "/" "*") rfl ⟨.empty, #[]⟩).2
  refine ⟨rfl, _, _, rfl, rfl, by decide +kernel, ?_⟩
  refine (hlabels _ _ rfl rfl).2.2.2 fun module name h => ?_
  cases h
  decide

/-- **Text from the module gets out of the comment** where it closes the comment itself. -/
theorem uncommented_pretty_escaping :
    let v : Var := .external "*/evil()/*" "f"
    v.isForeign = false ∧
      (pretty.label v ⟨.empty, #[]⟩).map Prod.fst = .ok "_0/**/evil()/*.f*/" ∧
      Text.uncommented "_0/**/evil()/*.f*/" = "_0evil()" ∧
      (compact.label v ⟨.empty, #[]⟩).map Prod.fst = .ok "_0" := by
  decide +kernel

end Naming

end Emission
