import Variability.Java.File

/-!
# What reading yields is proper

The syntax of a file can say of any class that it is anonymous. What is read says so exactly of the
classes in method bodies (`FileSyntax.IsProper`): wherever a reader of the grammar builds an item of
a method body or a type, it marks it rightly, and everything else passes on what was read before.

A property of all values that a reader can give (`Reader.Gives`) is kept by each way of putting
readers together. The rules of the grammar are put together in these ways, so that there is one
lemma for each rule, and the recursion of the grammar is an induction on the depth of nesting.

## Main results

* `Reader.Gives.bind`, `Reader.Gives.orElse`, `Reader.Gives.many`: readers put together.
* `Nested.isProper_depth`: at every depth, the grammar gives proper syntax.
* `FileSyntax.isProper_read`: whatever the text is, the file that is read is proper.
-/

namespace Variability.Java

/-! ### Proper syntax -/

/-- A class in a method body is anonymous. -/
def Item.IsProper : Item → Prop
  | .anonymous t => t.head.isAnonymous = true
  | .call .. | .returning .. => True

mutual

/-- A declared type is not anonymous, and its members are proper. -/
inductive TypeSyntax.IsProper : TypeSyntax → Prop
  | mk {head : TypeHead} {members : List Member} (hname : head.isAnonymous = false)
      (hmembers : ∀ m ∈ members, Member.IsProper m) : TypeSyntax.IsProper (.mk head members)

/-- Classes are anonymous in method bodies and only there. -/
inductive Member.IsProper : Member → Prop
  | field (type : String) (names : List String) : Member.IsProper (.field type names)
  | method (head : MethodHead) {body : List Item} (hbody : ∀ i ∈ body, i.IsProper) :
      Member.IsProper (.method head body)
  | type {t : TypeSyntax} (ht : TypeSyntax.IsProper t) : Member.IsProper (.type t)

end

theorem TypeSyntax.IsProper.isAnonymous {t : TypeSyntax} (ht : t.IsProper) :
    t.head.isAnonymous = false := by
  cases ht with
  | mk hname => exact hname

/-- The types of a file are proper. -/
def FileSyntax.IsProper (f : FileSyntax) : Prop := ∀ t ∈ f.types, t.IsProper

/-! ### Readers put together -/

namespace Reader

variable {α β : Type} {p q : Reader α} {P Q : α → Prop} {R : β → Prop}

/-- All values that the reader can give have a property. -/
def Gives (p : Reader α) (Q : α → Prop) : Prop := ∀ ts a rest, p ts = some (a, rest) → Q a

namespace Gives

theorem any (p : Reader α) : Gives p fun _ => True := fun _ _ _ _ => trivial

theorem pure {a : α} (ha : Q a) : Gives (Pure.pure a) Q := by
  intro ts b rest h
  cases h
  exact ha

theorem failure : Gives (Alternative.failure : Reader α) Q := by
  intro ts a rest h
  cases h

theorem bind {f : α → Reader β} (hp : Gives p P) (hf : ∀ a, P a → Gives (f a) R) :
    Gives (p >>= f) R := by
  intro ts b rest h
  obtain ⟨⟨a, ts'⟩, hpa, hfb⟩ := Option.bind_eq_some_iff.mp h
  exact hf a (hp ts a ts' hpa) ts' b rest hfb

/-- Whatever the first reader gives. -/
theorem after {f : α → Reader β} (hf : ∀ a, Gives (f a) R) : Gives (p >>= f) R :=
  (any p).bind fun a _ => hf a

theorem seqRight {q : Reader β} (hq : Gives q R) : Gives (p *> q) R := after fun _ => hq

theorem map {f : α → β} (hp : Gives p P) (hf : ∀ a, P a → R (f a)) : Gives (f <$> p) R :=
  hp.bind fun a ha => pure (hf a ha)

theorem orElse (hp : Gives p Q) (hq : Gives q Q) : Gives (p <|> q) Q := by
  intro ts a rest h
  have h : (p ts <|> q ts) = some (a, rest) := h
  cases hts : p ts with
  | some x =>
      rw [hts] at h
      exact hp ts a rest (hts.trans h)
  | none =>
      rw [hts] at h
      exact hq ts a rest h

theorem opt (hp : Gives p Q) : Gives (Reader.opt p) fun o => ∀ a ∈ o, Q a := by
  intro ts o rest h a ha
  unfold Reader.opt at h
  split at h
  · rename_i hts
    cases h
    cases ha
    exact hp _ _ _ hts
  · cases h
    cases ha

theorem many (hp : Gives p Q) : Gives (Reader.many p) fun as => ∀ a ∈ as, Q a := by
  have hupTo : ∀ bound ts, ∀ a ∈ (upTo p bound ts).1, Q a := by
    intro bound
    induction bound with
    | nil => intro ts a ha; cases ha
    | cons _ bound ih =>
        intro ts a ha
        unfold upTo at ha
        split at ha
        · rename_i hts
          rcases List.mem_cons.mp ha with rfl | ha
          · exact hp _ _ _ hts
          · exact ih _ a ha
        · cases ha
  intro ts as rest h
  have has : (upTo p ts ts).1 = as := congrArg Prod.fst (Option.some.inj h)
  exact has ▸ hupTo ts ts

theorem sepBy1 {sep : Reader β} (hp : Gives p Q) :
    Gives (Reader.sepBy1 p sep) fun as => ∀ a ∈ as, Q a := by
  refine hp.bind fun a ha => (many (seqRight hp)).bind fun as has => pure ?_
  intro b hb
  rcases List.mem_cons.mp hb with rfl | hb
  · exact ha
  · exact has b hb

theorem sepBy {sep : Reader β} (hp : Gives p Q) :
    Gives (Reader.sepBy p sep) fun as => ∀ a ∈ as, Q a :=
  hp.sepBy1.orElse (pure fun _ h => by cases h)

theorem extend {step : α → Reader α} (hstep : ∀ a, Q a → Gives (step a) Q) {a : α} (ha : Q a) :
    Gives (Reader.extend step a) Q := by
  have hextend : ∀ bound a ts, Q a → Q (extendUpTo step bound a ts).1 := by
    intro bound
    induction bound with
    | nil => intro a ts ha; exact ha
    | cons _ bound ih =>
        intro a ts ha
        unfold extendUpTo
        split
        · rename_i hts
          exact ih _ _ (hstep a ha _ _ _ hts)
        · exact ha
  intro ts b rest h
  have hb : (extendUpTo step ts a ts).1 = b := congrArg Prod.fst (Option.some.inj h)
  exact hb ▸ hextend ts a ts ha

theorem spanned (hp : Gives p Q) : Gives (Reader.spanned p) fun x => Q x.2 := by
  intro ts x rest h
  simp only [Reader.spanned] at h
  split at h
  · rename_i hts
    cases h
    exact hp _ _ _ hts
  · cases h

theorem braced (hp : Gives p Q) : Gives (Reader.braced p) Q :=
  after fun _ => hp.bind fun _ ha => after fun _ => pure ha

theorem parens (hp : Gives p Q) : Gives (Reader.parens p) Q :=
  after fun _ => hp.bind fun _ ha => after fun _ => pure ha

end Gives

end Reader

open Reader

/-! ### What is found -/

namespace Found

variable {f g : Found}

/-- The items that were found are proper. -/
def IsProper (f : Found) : Prop := ∀ i ∈ f.items, i.IsProper

theorem isProper_nothing : IsProper {} := fun _ h => absurd h List.not_mem_nil

theorem isProper_locals (vs : List Variable) : IsProper ⟨[], vs⟩ :=
  fun _ h => absurd h List.not_mem_nil

theorem isProper_item {i : Item} (hi : i.IsProper) : (item i).IsProper := by
  intro j hj
  rw [item, List.mem_singleton] at hj
  exact hj ▸ hi

theorem IsProper.append (hf : f.IsProper) (hg : g.IsProper) : (f ++ g).IsProper :=
  fun i hi => (List.mem_append.mp hi).elim (hf i) (hg i)

theorem isProper_concat {fs : List Found} (hfs : ∀ f ∈ fs, f.IsProper) :
    (concat fs).IsProper := by
  intro i hi
  obtain ⟨f, hf, hmem⟩ := List.mem_flatMap.mp hi
  exact hfs f hf i hmem

theorem isProper_ofOption {o : Option Found} (ho : ∀ f ∈ o, f.IsProper) :
    (ofOption o).IsProper := by
  cases o with
  | none => exact isProper_nothing
  | some f => exact ho f rfl

/-- What is found in several parts, of which each is more than that. -/
theorem isProper_concat_map {α : Type} {found : α → Found} {as : List α}
    (has : ∀ a ∈ as, (found a).IsProper) : (concat (as.map found)).IsProper := by
  refine isProper_concat fun f hf => ?_
  obtain ⟨a, ha, rfl⟩ := List.mem_map.mp hf
  exact has a ha

end Found

open Found

/-- The readers of nested constructs give proper syntax. -/
structure Nested.IsProper (r : Nested) : Prop where
  type : Gives r.type Found.IsProper
  elementValue : Gives r.elementValue Found.IsProper
  expression : Gives r.expression (·.found.IsProper)
  operand : ∀ lambdas, Gives (r.operand lambdas) (·.found.IsProper)
  initializer : Gives r.initializer Found.IsProper
  recordPattern : Gives r.recordPattern Found.IsProper
  statement : Gives r.statement Found.IsProper
  members : Gives r.members fun ms => ∀ m ∈ ms, m.IsProper

namespace Grammar

variable {r : Nested}

/-! ### Types, modifiers and variables -/

theorem gives_annotationUse (hr : r.IsProper) : Gives (annotationUse r) Found.IsProper := by
  refine .after fun _ => .after fun _ => hr.elementValue.sepBy.parens.opt.bind fun vs hvs => ?_
  refine .pure (isProper_concat ?_)
  cases vs with
  | none => exact fun _ h => absurd h List.not_mem_nil
  | some vs => exact hvs vs rfl

theorem gives_annotations (hr : r.IsProper) : Gives (annotations r) Found.IsProper :=
  (gives_annotationUse hr).many.map fun _ => isProper_concat

theorem gives_elementValue (hr : r.IsProper) :
    Gives (elementValue r (annotationUse r)) Found.IsProper := by
  refine .orElse (.braced ?_) (.orElse (gives_annotationUse hr) (.orElse ?_ ?_))
  · exact hr.elementValue.sepBy.bind fun _ hvs => .after fun _ => .pure (isProper_concat hvs)
  · exact .seqRight hr.elementValue
  · exact hr.expression.bind fun _ he => .pure he

theorem gives_typeArguments (hr : r.IsProper) : Gives (typeArguments r) Found.IsProper := by
  have hwildcard : Gives (wildcard r) Found.IsProper :=
    (gives_annotations hr).bind fun _ has => .after fun _ =>
      (Gives.seqRight hr.type).opt.bind fun _ hb => .pure (has.append (isProper_ofOption hb))
  exact .after fun _ => (hwildcard.orElse hr.type).sepBy.bind fun _ hts =>
    .after fun _ => .pure (isProper_concat hts)

theorem gives_typeSegment (hr : r.IsProper) : Gives (typeSegment r) Found.IsProper :=
  .after fun _ => (gives_typeArguments hr).opt.bind fun _ ho => .pure (isProper_ofOption ho)

theorem gives_simpleType (hr : r.IsProper) : Gives (simpleType r) Found.IsProper := by
  refine .orElse (.after fun _ => .pure isProper_nothing) ?_
  refine (gives_typeSegment hr).bind fun _ hfirst => ?_
  refine (Gives.many (.after fun _ => (gives_annotations hr).bind fun _ has =>
    (gives_typeSegment hr).bind fun _ hs => .pure (has.append hs))).bind fun _ hrest => ?_
  exact .pure (hfirst.append (isProper_concat hrest))

theorem gives_brackets (hr : r.IsProper) : Gives (brackets r) Found.IsProper :=
  (gives_annotations hr).bind fun _ has => .after fun _ => .after fun _ => .pure has

theorem gives_dimensions1 (hr : r.IsProper) : Gives (dimensions1 r) Found.IsProper :=
  (gives_brackets hr).bind fun _ hfirst => (gives_brackets hr).many.bind fun _ hrest =>
    .pure (hfirst.append (isProper_concat hrest))

theorem gives_dimensions (hr : r.IsProper) : Gives (dimensions r) Found.IsProper :=
  (gives_brackets hr).many.bind fun _ hbs => .pure (isProper_concat hbs)

theorem gives_bareType (hr : r.IsProper) : Gives (bareType r) Found.IsProper :=
  (gives_simpleType hr).bind fun _ ht => (gives_dimensions hr).bind fun _ hd =>
    .pure (ht.append hd)

theorem gives_type (hr : r.IsProper) : Gives (type r) Found.IsProper :=
  (gives_annotations hr).bind fun _ has => (gives_bareType hr).bind fun _ ht =>
    .pure (has.append ht)

theorem gives_modifiers (hr : r.IsProper) : Gives (modifiers r) (·.found.IsProper) := by
  refine .extend (fun l hl => ?_) isProper_nothing
  refine .orElse (.after fun _ => .pure hl) (.orElse (.seqRight (.pure hl)) ?_)
  exact (gives_annotationUse hr).bind fun _ ha => .pure (hl.append ha)

theorem gives_parameters (hr : r.IsProper) : Gives (parameters r) (·.2.IsProper) := by
  have hparameter : Gives (parameter r) (·.2.IsProper) := by
    refine (gives_modifiers hr).bind fun _ hms => .after fun _ =>
      (gives_bareType hr).spanned.bind fun ⟨_, _⟩ hf => .after fun e => ?_
    cases e with
    | spread => exact .pure (hms.append hf)
    | receiver => exact .pure (hms.append hf)
    | plain => exact .pure (hms.append hf)
  exact hparameter.sepBy.parens.bind fun _ hps => .pure (isProper_concat_map hps)

theorem gives_variableList (hr : r.IsProper) : Gives (variableList r) (·.found.IsProper) := by
  have hdeclarator : Gives (declarator r) (·.2.IsProper) :=
    .after fun _ => (gives_dimensions hr).bind fun _ hd =>
      (Gives.seqRight hr.initializer).opt.bind fun _ hv =>
        .pure (hd.append (isProper_ofOption hv))
  exact (gives_bareType hr).spanned.bind fun ⟨_, _⟩ hf => hdeclarator.sepBy1.bind fun _ hds =>
    .after fun _ => .pure (hf.append (isProper_concat_map hds))

theorem gives_arrayInitializer (hr : r.IsProper) :
    Gives (arrayInitializer r) Found.IsProper :=
  .braced (hr.initializer.sepBy.bind fun _ hvs => .after fun _ => .pure (isProper_concat hvs))

theorem gives_initializer (hr : r.IsProper) : Gives (initializer r) Found.IsProper :=
  (gives_arrayInitializer hr).orElse (hr.expression.bind fun _ he => .pure he)

/-! ### Expressions -/

theorem gives_literal : Gives literal (·.found.IsProper) := by
  refine .after fun t => ?_
  split
  · exact .pure isProper_nothing
  · split
    · exact .pure isProper_nothing
    · exact .failure

theorem gives_arguments (hr : r.IsProper) : Gives (arguments r) Found.IsProper :=
  hr.expression.sepBy.parens.bind fun _ hes => .pure (isProper_concat_map hes)

/-- Arguments, if there are any. -/
theorem gives_opt_arguments (hr : r.IsProper) {Q : Operand → Prop}
    {f : Option Found → Reader Operand} (hsome : ∀ args, args.IsProper → Gives (f (some args)) Q)
    (hnone : Gives (f none) Q) : Gives (opt (arguments r) >>= f) Q := by
  refine (gives_arguments hr).opt.bind fun o ho => ?_
  cases o with
  | none => exact hnone
  | some args => exact hsome args (ho args rfl)

theorem gives_typeReference (hr : r.IsProper) : Gives (typeReference r) (·.found.IsProper) :=
  (gives_type hr).bind fun _ ht => .after fun _ => .pure ht

theorem gives_nameOrCall (hr : r.IsProper) : Gives (nameOrCall r) (·.found.IsProper) := by
  refine .after fun n => gives_opt_arguments hr (fun args hargs => .pure ?_)
    (.pure isProper_nothing)
  exact (isProper_item (i := .call .implicit n) trivial).append hargs

theorem gives_selfReference (hr : r.IsProper) : Gives (selfReference r) (·.found.IsProper) :=
  .after fun _ => .after fun _ =>
    gives_opt_arguments hr (fun _ hargs => .pure hargs) (.pure isProper_nothing)

theorem gives_superReference (hr : r.IsProper) : Gives (superReference r) (·.found.IsProper) :=
  .after fun _ => .after fun _ =>
    gives_opt_arguments hr (fun _ hargs => .pure hargs) (.pure isProper_nothing)

theorem gives_parenthesized (hr : r.IsProper) : Gives (parenthesized r) (·.found.IsProper) :=
  .parens (.after fun _ => hr.expression.bind fun _ he => .pure he)

theorem gives_arrayShape (hr : r.IsProper) : Gives (arrayShape r) (·.2.IsProper) := by
  have hlength : Gives (lengthBrackets r) Found.IsProper :=
    (gives_annotations hr).bind fun _ has => .after fun _ => hr.expression.bind fun _ he =>
      .after fun _ => .pure (has.append he)
  refine .orElse ?_ ?_
  · refine hlength.spanned.bind fun first hfirst => hlength.spanned.many.bind fun more hmore =>
      (gives_dimensions1 hr).spanned.opt.bind fun last hlast => .pure (isProper_concat_map ?_)
    intro d hd
    rcases List.mem_append.mp hd with hd | hd
    · rcases List.mem_cons.mp hd with rfl | hd
      · exact hfirst
      · exact hmore d hd
    · exact hlast d (Option.mem_toList.mp hd)
  · exact (gives_dimensions1 hr).spanned.bind fun ⟨_, _⟩ hf =>
      (gives_arrayInitializer hr).bind fun _ hvs => .pure (hf.append hvs)

/-- A class that is created with its body is marked as anonymous. -/
theorem gives_creation (hr : r.IsProper) : Gives (creation r) (·.found.IsProper) := by
  refine .after fun _ => (gives_annotations hr).bind fun before hbefore =>
    (gives_typeArguments hr).opt.bind fun targs htargs =>
      (gives_annotations hr).bind fun after hafter =>
        (gives_simpleType hr).spanned.bind fun ⟨t, tf⟩ htf => ?_
  have hfront : (before ++ .ofOption targs ++ after ++ tf).IsProper :=
    ((hbefore.append (isProper_ofOption htargs)).append hafter).append htf
  refine .orElse ?_ ?_
  · refine (gives_arguments hr).bind fun args hargs => .after fun body => ?_
    cases body with
    | some members => exact .pure (hargs.append (isProper_item rfl))
    | none => exact .pure (hfront.append hargs)
  · exact (gives_arrayShape hr).bind fun ⟨_, _⟩ hf => .pure (hfront.append hf)

/-- A type and a name with modifiers in front. -/
theorem gives_typed (hr : r.IsProper) : Gives (do
    let ms ← modifiers r
    let t ← bareType r
    let _ ← name
    return ms.found ++ t) Found.IsProper :=
  (gives_modifiers hr).bind fun _ hms => (gives_bareType hr).bind fun _ ht =>
    .after fun _ => .pure (hms.append ht)

theorem gives_recordPattern (hr : r.IsProper) : Gives (recordPattern r) Found.IsProper := by
  have hcomponent : Gives (patternComponent r) Found.IsProper :=
    hr.recordPattern.orElse ((gives_typed hr).orElse (.seqRight (.pure isProper_nothing)))
  exact (gives_simpleType hr).bind fun _ ht => hcomponent.sepBy.parens.bind fun _ hcs =>
    .after fun _ => .pure (ht.append (isProper_concat hcs))

theorem gives_switchLabel (hr : r.IsProper) {expression : Reader Operand}
    (hexpression : Gives expression (·.found.IsProper)) :
    Gives (switchLabel r expression) Found.IsProper := by
  have hpattern : Gives (labelPattern r) Found.IsProper :=
    ((gives_recordPattern hr).orElse (gives_typed hr)).bind fun _ hp => .after fun _ => .pure hp
  have hvalue : Gives ((word "default" *> pure .nothing) <|> (do return (← expression).found))
      Found.IsProper :=
    .orElse (.seqRight (.pure isProper_nothing)) (hexpression.bind fun _ he => .pure he)
  refine .orElse (.seqRight (.pure isProper_nothing)) (.after fun _ => ?_)
  refine Gives.bind (P := Found.IsProper) (.orElse ?_ ?_) fun found hfound => ?_
  · exact hpattern.sepBy1.bind fun _ hps => .pure (isProper_concat hps)
  · exact hvalue.sepBy1.bind fun _ hvs => .pure (isProper_concat hvs)
  · refine (Gives.seqRight hexpression).opt.bind fun guard hguard => .pure (hfound.append ?_)
    cases guard with
    | none => exact isProper_nothing
    | some o => exact hguard o rfl

theorem gives_switch (hr : r.IsProper) {expression : Reader Operand}
    (hexpression : Gives expression (·.found.IsProper)) :
    Gives (switch r expression) Found.IsProper := by
  have hbody : Gives ((sign "->" *> r.statement) <|> (sign ":" *> pure .nothing))
      Found.IsProper := .orElse (.seqRight hr.statement) (.seqRight (.pure isProper_nothing))
  refine .after fun _ => (gives_parenthesized hr).bind fun _ hsubject => ?_
  refine (Gives.many (.orElse ?_ hr.statement)).braced.bind fun _ hparts => ?_
  · exact (gives_switchLabel hr hexpression).bind fun _ hl => hbody.bind fun _ hb =>
      .pure (hl.append hb)
  · exact .pure (hsubject.append (isProper_concat hparts))

theorem gives_lambda (hr : r.IsProper) : Gives (lambda r) (·.found.IsProper) := by
  have hbody : Gives (lambdaBody r) Found.IsProper := by
    refine .after fun b => ?_
    cases b with
    | true => exact hr.statement
    | false => exact hr.expression.bind fun _ he => .pure he
  refine Gives.bind (P := Found.IsProper) (.orElse ?_ (.orElse ?_ ?_)) fun _ hps =>
    hbody.bind fun _ hb => .pure (hps.append hb)
  · exact .seqRight (.pure isProper_nothing)
  · exact .seqRight (.pure isProper_nothing)
  · exact (gives_parameters hr).bind fun ⟨_, _⟩ hf => .after fun _ => .pure hf

theorem gives_cast (hr : r.IsProper) (lambdas : Bool) :
    Gives (cast r lambdas) (·.found.IsProper) := by
  refine .after fun _ => (gives_type hr).spanned.bind fun ⟨t, tf⟩ htf =>
    (Gives.seqRight (gives_type hr)).many.bind fun more hmore => .after fun _ => ?_
  have hvalue : Gives (r.operand lambdas >>= fun v =>
      pure (Operand.of (.cast t) (tf ++ Found.concat more ++ v.found))) (·.found.IsProper) :=
    (hr.operand lambdas).bind fun _ hv => .pure ((htf.append (isProper_concat hmore)).append hv)
  refine .after fun sign => ?_
  by_cases hsign : (!more.isEmpty && sign) = true
  · simp only [if_pos hsign]
    exact .after fun _ => hvalue
  · simp only [if_neg hsign]
    exact hvalue

theorem gives_primary (hr : r.IsProper) : Gives (primary r) (·.found.IsProper) := by
  have hcreation : Gives (creation r >>= fun c => pure (Operand.of c.form c.found))
      (·.found.IsProper) := (gives_creation hr).bind fun _ hc => .pure hc
  exact gives_literal.orElse <| (gives_typeReference hr).orElse <| (gives_nameOrCall hr).orElse <|
    (gives_selfReference hr).orElse <| (gives_superReference hr).orElse <|
    hcreation.orElse (gives_parenthesized hr)

theorem gives_memberSuffix (hr : r.IsProper) {o : Operand} (ho : o.found.IsProper) :
    Gives (memberSuffix r o) (·.found.IsProper) := by
  refine (gives_typeArguments hr).opt.bind fun _ htargs => .after fun n =>
    gives_opt_arguments hr (fun args hargs => .pure ?_) (.pure ho)
  have hitem : (item (.call o.receiver n)).IsProper := isProper_item trivial
  exact ((hitem.append ho).append (isProper_ofOption htargs)).append hargs

theorem gives_pointSuffix (hr : r.IsProper) {o : Operand} (ho : o.found.IsProper) :
    Gives (pointSuffix r o) (·.found.IsProper) := by
  refine (gives_memberSuffix hr ho).orElse (.orElse (.seqRight (.pure ho)) (.orElse ?_
    (.orElse ?_ (.seqRight (.pure ho)))))
  · exact .after fun _ => .after fun _ =>
      gives_opt_arguments hr (fun _ hargs => .pure (ho.append hargs)) (.pure ho)
  · refine (gives_creation hr).bind fun c hc => .pure ?_
    cases c.anonymous with
    | true => exact hc
    | false => exact ho.append hc

theorem gives_suffix (hr : r.IsProper) {o : Operand} (ho : o.found.IsProper) :
    Gives (suffix r o) (·.found.IsProper) := by
  refine .orElse (.seqRight (gives_pointSuffix hr ho)) (.orElse ?_ ?_)
  · exact .after fun _ => hr.expression.bind fun _ he => .after fun _ => .pure (ho.append he)
  · exact .after fun _ => (gives_typeArguments hr).opt.bind fun _ htargs => .after fun _ =>
      .pure (ho.append (isProper_ofOption htargs))

theorem gives_suffixed (hr : r.IsProper) : Gives (suffixed r) (·.found.IsProper) := by
  refine (gives_primary hr).bind fun first hfirst =>
    (Gives.extend (fun o ho => gives_suffix hr ho) hfirst).bind fun o ho => .after fun s => ?_
  cases s with
  | some _ => exact .pure ho
  | none => exact .pure ho

theorem gives_operations (hr : r.IsProper) {operand : Reader Operand}
    (hoperand : Gives operand (·.found.IsProper)) :
    Gives (operations r operand) (·.found.IsProper) := by
  have htest : Gives (typeTest r) Found.IsProper := by
    refine .after fun _ => (gives_modifiers hr).bind fun _ hms => ?_
    refine Gives.bind (P := Found.IsProper) ((gives_recordPattern hr).orElse ?_)
      fun _ ht => .pure (hms.append ht)
    exact (gives_type hr).bind fun _ ht => .after fun _ => .pure ht
  have hoperation : Gives (operation r operand) Found.IsProper := by
    refine htest.orElse (.orElse ?_ ?_)
    · exact .after fun _ => hr.expression.bind fun _ hyes => .after fun _ =>
        hoperand.bind fun _ hno => .pure (hyes.append hno)
    · exact .after fun _ => hoperand.bind fun _ ho => .pure ho
  refine hoperand.bind fun first hfirst => hoperation.many.bind fun rest hrest => ?_
  split
  · exact .pure hfirst
  · exact .pure (hfirst.append (isProper_concat hrest))

theorem gives_operand (hr : r.IsProper) (lambdas : Bool) :
    Gives (operand r lambdas) (·.found.IsProper) := by
  refine .orElse ?_ (.orElse ?_ ((gives_cast hr lambdas).orElse (.orElse ?_ (gives_suffixed hr))))
  · exact .after fun _ => (hr.operand lambdas).bind fun _ ho => .pure ho
  · cases lambdas with
    | true => exact gives_lambda hr
    | false => exact .failure
  · exact (gives_switch hr (gives_operations hr (hr.operand false))).bind fun _ hs => .pure hs

/-! ### Statements -/

theorem gives_block (hr : r.IsProper) : Gives (block r) Found.IsProper :=
  hr.statement.many.braced.bind fun _ hss => .pure (isProper_concat hss)

theorem gives_contents (hr : r.IsProper) : Gives (contents r) Found.IsProper :=
  hr.expression.bind fun _ he => .pure he

theorem gives_localVariables (hr : r.IsProper) : Gives (localVariables r) Found.IsProper :=
  (gives_modifiers hr).bind fun _ hms => (gives_variableList hr).bind fun _ hvs =>
    .pure (((isProper_locals _).append hms).append hvs)

theorem gives_variableFrom (hr : r.IsProper) (s : String) :
    Gives (variableFrom r s) Found.IsProper :=
  (gives_modifiers hr).bind fun _ hms => (gives_bareType hr).spanned.bind fun ⟨_, _⟩ htf =>
    .after fun _ => (gives_dimensions hr).bind fun _ hd => .after fun _ =>
      hr.expression.bind fun _ he =>
        .pure (((((isProper_locals _).append hms).append htf).append hd).append he)

theorem gives_forStatement (hr : r.IsProper) : Gives (forStatement r) Found.IsProper := by
  have hlist : Gives (sepBy (contents r) (sign ",")) fun es => ∀ e ∈ es, e.IsProper :=
    (gives_contents hr).sepBy
  have hhead : Gives (loopHead r) Found.IsProper := by
    refine Gives.bind (P := Found.IsProper) ((gives_localVariables hr).orElse ?_)
      fun start hstart => ?_
    · exact hlist.bind fun _ hes => .after fun _ => .pure (isProper_concat hes)
    · exact (gives_contents hr).opt.bind fun _ hcondition => .after fun _ =>
        hlist.bind fun _ hstep => .pure
          ((hstart.append (isProper_ofOption hcondition)).append (isProper_concat hstep))
  exact .after fun _ => ((gives_variableFrom hr ":").parens.orElse hhead.parens).bind
    fun _ hh => hr.statement.bind fun _ hs => .pure (hh.append hs)

theorem gives_ifStatement (hr : r.IsProper) : Gives (ifStatement r) Found.IsProper :=
  .after fun _ => (gives_parenthesized hr).bind fun _ hc => hr.statement.bind fun _ hyes =>
    (Gives.seqRight hr.statement).opt.bind fun _ hno =>
      .pure ((hc.append hyes).append (isProper_ofOption hno))

theorem gives_whileStatement (hr : r.IsProper) : Gives (whileStatement r) Found.IsProper :=
  .after fun _ => (gives_parenthesized hr).bind fun _ hc => hr.statement.bind fun _ hs =>
    .pure (hc.append hs)

theorem gives_doStatement (hr : r.IsProper) : Gives (doStatement r) Found.IsProper :=
  .after fun _ => hr.statement.bind fun _ hs => .after fun _ =>
    (gives_parenthesized hr).bind fun _ hc => .after fun _ => .pure (hs.append hc)

theorem gives_tryStatement (hr : r.IsProper) : Gives (tryStatement r) Found.IsProper := by
  have hresources : Gives (resources r) Found.IsProper :=
    .parens (((gives_variableFrom hr "=").orElse (gives_contents hr)).sepBy1.bind fun _ hrs =>
      .after fun _ => .pure (isProper_concat hrs))
  have hhead : Gives (do
      let ms ← modifiers r
      let ts ← sepBy1 (bareType r) (sign "|")
      let _ ← name
      let d ← dimensions r
      return ms.found ++ Found.concat ts ++ d) Found.IsProper :=
    (gives_modifiers hr).bind fun _ hms => (gives_bareType hr).sepBy1.bind fun _ hts =>
      .after fun _ => (gives_dimensions hr).bind fun _ hd =>
        .pure ((hms.append (isProper_concat hts)).append hd)
  have hcatch : Gives (catchClause r) Found.IsProper :=
    .after fun _ => hhead.parens.bind fun _ hh => (gives_block hr).bind fun _ hb =>
      .pure (hh.append hb)
  exact .after fun _ => hresources.opt.bind fun _ hrs => (gives_block hr).bind fun _ hb =>
    hcatch.many.bind fun _ hcs => (Gives.seqRight (gives_block hr)).opt.bind fun _ hlast =>
      .pure ((((isProper_ofOption hrs).append hb).append (isProper_concat hcs)).append
        (isProper_ofOption hlast))

theorem gives_returnStatement (hr : r.IsProper) : Gives (returnStatement r) Found.IsProper := by
  refine .after fun _ => .after fun c => hr.expression.opt.bind fun e he => .after fun _ => ?_
  have hitem : ∀ value, (item (.returning value)).IsProper := fun _ => isProper_item trivial
  refine .pure ((hitem _).append ?_)
  cases e with
  | none => exact isProper_nothing
  | some e => exact he e rfl

theorem gives_simpleStatement (hr : r.IsProper) (w separator : String) :
    Gives (simpleStatement r w separator) Found.IsProper :=
  .after fun _ => (gives_contents hr).sepBy.bind fun _ hes => .after fun _ =>
    .pure (isProper_concat hes)

theorem gives_synchronizedStatement (hr : r.IsProper) :
    Gives (synchronizedStatement r) Found.IsProper :=
  .after fun _ => (gives_parenthesized hr).bind fun _ he => (gives_block hr).bind fun _ hb =>
    .pure (he.append hb)

theorem gives_statement (hr : r.IsProper) : Gives (statement r) Found.IsProper := by
  have hexpression : Gives (expressionStatement r) Found.IsProper :=
    (gives_contents hr).bind fun _ he => .after fun _ => .pure he
  have hyield : Gives (yieldStatement r) Found.IsProper := .after fun _ => hexpression
  have hlocalType : Gives (localType r) Found.IsProper :=
    .after fun _ => .after fun _ => .after fun _ => .pure isProper_nothing
  have hswitch : Gives (switch r (operations r (r.operand false))) Found.IsProper :=
    gives_switch hr (gives_operations hr (hr.operand false))
  have hempty : Gives (sign ";" *> pure .nothing) Found.IsProper :=
    .seqRight (.pure isProper_nothing)
  have hlabelled : Gives (name *> sign ":" *> r.statement) Found.IsProper :=
    .seqRight hr.statement
  exact (gives_block hr).orElse <| hempty.orElse <| (gives_ifStatement hr).orElse <|
    (gives_whileStatement hr).orElse <| (gives_doStatement hr).orElse <|
    (gives_forStatement hr).orElse <| (gives_tryStatement hr).orElse <|
    (gives_returnStatement hr).orElse <| (gives_simpleStatement hr _ _).orElse <|
    (gives_simpleStatement hr _ _).orElse <| (gives_simpleStatement hr _ _).orElse <|
    (gives_simpleStatement hr _ _).orElse <| (gives_synchronizedStatement hr).orElse <|
    hswitch.orElse <| hyield.orElse <| hlocalType.orElse <|
    (gives_localVariables hr).orElse <| hlabelled.orElse hexpression

/-! ### Declarations -/

theorem gives_methodRest (hr : r.IsProper) (head : MethodHead) :
    Gives (methodRest r head) Member.IsProper := by
  have hbody : Gives (methodBody r) fun o => ∀ f ∈ o, f.IsProper := by
    refine .orElse ((gives_block hr).map fun f hf g hg => ?_)
      (.seqRight (.pure fun f hf => by cases hf))
    cases hg
    exact hf
  refine .after fun ⟨_, _⟩ => .after fun _ => .after fun _ => hbody.bind fun o ho => .pure ?_
  exact .method _ (isProper_ofOption ho)

theorem gives_typeDeclaration (hr : r.IsProper) (ms : Modifiers) :
    Gives (typeDeclaration r ms) fun o => ∀ t ∈ o, t.IsProper := by
  have hclass : Gives (classDeclaration r ms) TypeSyntax.IsProper :=
    .after fun _ => .after fun _ => .after fun _ => .after fun _ => .after fun _ =>
      .after fun _ => hr.members.bind fun _ hmembers => .pure (.mk rfl hmembers)
  have hinterface : Gives (interfaceDeclaration r ms) TypeSyntax.IsProper :=
    .after fun _ => .after fun _ => .after fun _ => .after fun _ => .after fun _ =>
      hr.members.bind fun _ hmembers => .pure (.mk rfl hmembers)
  have henum : Gives (enumDeclaration r ms) TypeSyntax.IsProper :=
    .after fun _ => .after fun _ => .after fun _ => .after fun _ => .after fun _ =>
      .pure (.mk rfl fun _ h => absurd h List.not_mem_nil)
  have hsome : ∀ t : TypeSyntax, t.IsProper → ∀ u ∈ some t, u.IsProper := by
    intro t ht u hu
    cases hu
    exact ht
  exact (hclass.map hsome).orElse <| (hinterface.map hsome).orElse <| (henum.map hsome).orElse <|
    .seqRight (.pure fun t ht => by cases ht)

theorem gives_members (hr : r.IsProper) :
    Gives (members r) fun ms => ∀ m ∈ ms, m.IsProper := by
  have hnone : ∀ m ∈ (none : Option Member), m.IsProper := fun m hm => by cases hm
  have hsome : ∀ m : Member, m.IsProper → ∀ m' ∈ some m, m'.IsProper := by
    intro m hm m' hm'
    cases hm'
    exact hm
  have hmember : Gives (member r) fun o => ∀ m ∈ o, m.IsProper := by
    refine .orElse (.seqRight (.pure hnone)) (.orElse (.seqRight (.pure hnone)) ?_)
    refine .after fun ms => .orElse ?_ (.orElse (.seqRight (.pure hnone)) (.orElse ?_
      (.orElse ?_ ?_)))
    · refine (gives_typeDeclaration hr _).bind fun o ho => .pure ?_
      cases o with
      | none => exact hnone
      | some t => exact hsome _ (.type (ho t rfl))
    · exact Gives.map (.after fun _ => .after fun _ => gives_methodRest hr _) hsome
    · exact Gives.map (.after fun _ => .after fun _ => .after fun _ => gives_methodRest hr _) hsome
    · exact Gives.map (.after fun _ => .pure (.field _ _)) hsome
  refine .braced (hmember.many.bind fun os hos => .pure fun m hm => ?_)
  obtain ⟨o, ho, rfl⟩ := List.mem_filterMap.mp hm
  exact hos (some m) ho m rfl

end Grammar

/-! ### Files -/

/-- **At every depth, the grammar gives proper syntax.** -/
theorem Nested.isProper_depth (n : Nat) : (Nested.depth n).IsProper := by
  induction n with
  | zero => exact ⟨.failure, .failure, .failure, fun _ => .failure, .failure, .failure, .failure,
      .failure⟩
  | succ n ih =>
      exact {
        type := Grammar.gives_type ih
        elementValue := Grammar.gives_elementValue ih
        expression := Grammar.gives_operations ih (Grammar.gives_operand ih true)
        operand := Grammar.gives_operand ih
        initializer := Grammar.gives_initializer ih
        recordPattern := Grammar.gives_recordPattern ih
        statement := Grammar.gives_statement ih
        members := Grammar.gives_members ih }

/-- The types among the parts of a file are proper. -/
theorem File.gives_part {r : Nested} (hr : r.IsProper) :
    Gives (File.part r) fun p => ∀ t ∈ p.type?, t.IsProper := by
  have hpassed : ∀ t ∈ Part.passedOver.type?, t.IsProper := fun t ht => by cases ht
  refine .orElse ?_ (.orElse ?_ (.orElse ?_ (.orElse ?_ (.orElse ?_ (.orElse ?_ ?_)))))
  · exact .after fun _ => .after fun _ => .after fun _ => .after fun _ =>
      .pure fun t ht => by cases ht
  · exact .after fun _ => .after fun _ => .after fun _ => .after fun _ => .after fun _ =>
      .pure fun t ht => by cases ht
  · exact .after fun _ => .after fun _ => .after fun _ => .after fun _ => .after fun _ =>
      .after fun _ => .pure hpassed
  · refine .after fun _ => (Grammar.gives_typeDeclaration hr _).bind fun o ho => ?_
    cases o with
    | none => exact .pure hpassed
    | some t => exact .pure ho
  · exact .after fun _ => .after fun _ => .pure hpassed
  · exact .seqRight (.pure hpassed)
  · exact .seqRight (.pure hpassed)

/-- **Whatever the text is, the file that is read is proper.** -/
theorem FileSyntax.isProper_read (path text : String) : (FileSyntax.read path text).IsProper := by
  intro t ht
  obtain ⟨part, hpart, htype⟩ := List.mem_filterMap.mp ht
  have hparts := (File.gives_part (Nested.isProper_depth ((Token.scan text).length + 1))).many
    (Token.scan text) _ _ rfl
  exact hparts part hpart t htype

end Variability.Java
