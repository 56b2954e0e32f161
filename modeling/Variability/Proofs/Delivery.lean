import Variability.Proofs.Growth

/-!
# What a sweep hands to its handlers

The five sweeps of an analysis go into every type that is not excluded. Which events their handlers
get, and in which context, thus depends on the events alone: it is the same for all five and can be
listed in advance (`Sweep.deliveries`). The list is defined for any events, well nested or not, and
a sweep is a loop over it. It is what a sweep writes down that does nothing else (`Sweep.heard`).

A handler that turns a graph into another, whatever its counters are (`Session.Turns`), has an
effect on graphs. A sweep whose handlers have effects applies them to the graph one after the other,
in the order of the deliveries (`Sweep.Acting`). What a sweep does to a graph is thereby a fold over
a list, and what it preserves is shown one delivery at a time. Handlers that count what they do keep
their counters in step with the graph (`Sweep.Tallying`), and so does the sweep.

## Main results

* `Sweep.Uniform.exists_run_eq`: a sweep is a loop over what is listed.
* `Sweep.heard_eq_deliveries`: handlers get what is listed.
* `Sweep.Acting.turns_run`: a sweep applies the effects of its handlers to the deliveries, in order.
* `Sweep.Tallying.turnsIn_run`: counters that handlers keep in step with the graph stay so.
* `Sweep.Acting.grown_apply`: what is so applied lets the graph grow.
* `Sweep.Acting.exists_of_mem`: the graph that one delivery meets, and what becomes of it.
-/

namespace Variability

namespace Sweep

/-! ### Deliveries -/

/-- Whether some handler is there for an event. The ends of types have handlers too, but none of
them does anything. -/
def isHandled : Event → Bool
  | .importing _ | .exited | .invocation none => false
  | .entered _ | .method _ | .field _ | .invocation (some _) | .returning _ => true

/-- Whether handlers get an event. -/
def Progress.delivers (p : Progress) : Event → Bool
  | .importing _ | .exited | .invocation none => false
  | .entered d => p.depth == 0 && d.exclusion?.isNone
  | .method _ | .field _ | .invocation (some _) | .returning _ => p.depth == 0

/-- How far a sweep that goes into every type that is not excluded has come past one event. -/
def Progress.after (p : Progress) : Event → Progress
  | .importing i =>
    if i.isStatic then p
    else { p with context := { p.context with imports := p.context.imports ++ [i] } }
  | .entered d =>
    if p.depth > 0 then { p with depth := p.depth + 1 }
    else if d.exclusion?.isSome then { p with skipped := p.skipped + 1, depth := 1 }
    else { p with
      visited := p.visited + 1
      context := { p.context with types := d :: p.context.types } }
  | .exited =>
    if p.depth > 0 then { p with depth := p.depth - 1 }
    else { p with context := { p.context with types := p.context.types.tail } }
  | _ => p

/-- The events that handlers get on the way through some events, each with its context. -/
def deliveriesFrom (p : Progress) : List Event → List (Context × Event)
  | [] => []
  | e :: es =>
    if p.delivers e then (p.context, e) :: deliveriesFrom (p.after e) es
    else deliveriesFrom (p.after e) es

/-- The events of all units that handlers get, in order, each with its context. -/
def deliveries (units : List SourceUnit) : List (Context × Event) :=
  units.flatMap fun u => deliveriesFrom {} u.events

theorem deliveries_cons (u : SourceUnit) (units : List SourceUnit) :
    deliveries (u :: units) = deliveriesFrom {} u.events ++ deliveries units :=
  List.flatMap_cons

/-- The types that sweeps go into, each with its context. -/
def visited (units : List SourceUnit) : List (Context × TypeDecl) :=
  (deliveries units).filterMap fun
    | (c, .entered d) => some (c, d)
    | _ => none

theorem isHandled_of_delivers {p : Progress} {e : Event} (h : p.delivers e = true) :
    isHandled e = true := by
  rcases e with _ | _ | _ | _ | _ | (_ | _) | _
  · exact absurd h Bool.false_ne_true
  · rfl
  · exact absurd h Bool.false_ne_true
  · rfl
  · rfl
  · exact absurd h Bool.false_ne_true
  · rfl
  · rfl

theorem isHandled_of_mem_deliveriesFrom {p : Progress} {es : List Event} {c : Context} {e : Event}
    (h : (c, e) ∈ deliveriesFrom p es) : isHandled e = true := by
  induction es generalizing p with
  | nil => exact absurd h List.not_mem_nil
  | cons e' es ih =>
      rw [deliveriesFrom] at h
      split at h
      · rename_i hdelivers
        rcases List.mem_cons.mp h with heq | h
        · cases heq
          exact isHandled_of_delivers hdelivers
        · exact ih h
      · exact ih h

theorem isHandled_of_mem_deliveries {units : List SourceUnit} {c : Context} {e : Event}
    (h : (c, e) ∈ deliveries units) : isHandled e = true := by
  obtain ⟨u, -, hu⟩ := List.mem_flatMap.mp h
  exact isHandled_of_mem_deliveriesFrom hu

theorem mem_visited {units : List SourceUnit} {c : Context} {d : TypeDecl} :
    (c, d) ∈ visited units ↔ (c, .entered d) ∈ deliveries units := by
  simp only [visited, List.mem_filterMap]
  constructor
  · rintro ⟨⟨c', e⟩, hmem, heq⟩
    split at heq
    · cases heq
      rename_i hpair
      cases hpair
      exact hmem
    · cases heq
  · intro hmem
    exact ⟨_, hmem, rfl⟩

/-! ### Loops -/

section Loop

variable {m : Type → Type} [Monad m] {s : Sweep m} {f : Context → Event → m Unit}

/-- The handlers of a sweep are the cases of one function, go into every type they get, and do
nothing at its end. -/
structure Uniform (s : Sweep m) (f : Context → Event → m Unit) : Prop where
  enter : ∀ c d, s.enter c d = do f c (.entered d); pure .descend
  exit : ∀ c d, s.exit c d = pure ()
  method : ∀ c d, s.method c d = f c (.method d)
  field : ∀ c d, s.field c d = f c (.field d)
  invocation : ∀ c i, s.invocation c i = f c (.invocation (some i))
  returning : ∀ c r, s.returning c r = f c (.returning r)

variable [LawfulMonad m]

theorem Uniform.step_eq (h : s.Uniform f) (p : Progress) (e : Event) :
    s.step p e =
      (if p.delivers e then f p.context e else pure ()) >>= fun _ => pure (p.after e) := by
  rcases p with ⟨⟨imports, types⟩, depth, visited, skipped⟩
  cases e with
  | importing i =>
      cases hi : i.isStatic
      · simp [step, Progress.after, Progress.delivers, hi]
      · simp [step, Progress.after, Progress.delivers, hi]
  | entered d =>
      cases depth with
      | zero =>
          cases hd : d.exclusion?
          · simp [step, startType, decideVisit, h.enter, Progress.after, Progress.delivers, hd]
          · simp [step, startType, decideVisit, Progress.after, Progress.delivers, hd]
      | succ => simp [step, Progress.after, Progress.delivers]
  | exited =>
      cases depth with
      | zero =>
          cases types
          · simp [step, endType, Progress.after, Progress.delivers]
          · simp [step, endType, h.exit, Progress.after, Progress.delivers]
      | succ => simp [step, Progress.after, Progress.delivers]
  | method => cases depth <;> simp [step, h.method, Progress.after, Progress.delivers]
  | field => cases depth <;> simp [step, h.field, Progress.after, Progress.delivers]
  | invocation i =>
      cases i with
      | none => simp [step, Progress.after, Progress.delivers]
      | some => cases depth <;> simp [step, h.invocation, Progress.after, Progress.delivers]
  | returning => cases depth <;> simp [step, h.returning, Progress.after, Progress.delivers]

theorem Uniform.events_eq (h : s.Uniform f) (es : List Event) (p : Progress) :
    es.foldlM s.step p = forM (deliveriesFrom p es) (fun d => f d.1 d.2) >>= fun _ =>
      pure (es.foldl Progress.after p) := by
  induction es generalizing p with
  | nil => simp [deliveriesFrom]
  | cons e es ih =>
      rw [List.foldlM_cons, h.step_eq, deliveriesFrom, List.foldl_cons]
      by_cases he : p.delivers e = true
      · simp [he, ih]
      · simp [he, ih]

/-- **A sweep is a loop over the deliveries.** -/
theorem Uniform.exists_run_eq (h : s.Uniform f) (units : List SourceUnit) :
    ∃ report, s.run units =
      forM (deliveries units) (fun d => f d.1 d.2) >>= fun _ => pure report := by
  unfold run
  generalize ({ pass := s.name } : Report) = r
  induction units generalizing r with
  | nil => exact ⟨r, by simp [deliveries]⟩
  | cons u units ih =>
      obtain ⟨r', hunit⟩ : ∃ r', s.runUnit r u =
          forM (deliveriesFrom {} u.events) (fun d => f d.1 d.2) >>= fun _ => pure r' := by
        simp only [runUnit, h.events_eq, bind_assoc, pure_bind]
        exact ⟨_, rfl⟩
      obtain ⟨report, hrest⟩ := ih r'
      refine ⟨report, ?_⟩
      rw [List.foldlM_cons, hunit, bind_assoc]
      simp only [pure_bind, hrest]
      rw [deliveries_cons, List.forM_append, bind_assoc]

end Loop

/-! ### Listening -/

/-- A sweep that goes into every type it gets, and only writes down what its handlers get. -/
def listener : Sweep (StateM (List (Context × Event))) where
  name := "listener"
  enter c d := do
    modify (· ++ [(c, .entered d)])
    pure .descend
  method c d := modify (· ++ [(c, .method d)])
  field c d := modify (· ++ [(c, .field d)])
  invocation c i := modify (· ++ [(c, .invocation (some i))])
  returning c r := modify (· ++ [(c, .returning r)])

/-- What a listener has written down after some units. -/
def heard (units : List SourceUnit) : List (Context × Event) := ((listener.run units).run []).run.2

theorem uniform_listener : listener.Uniform fun c e => modify (· ++ [(c, e)]) :=
  ⟨fun _ _ => rfl, fun _ _ => rfl, fun _ _ => rfl, fun _ _ => rfl, fun _ _ => rfl, fun _ _ => rfl⟩

/-- **What handlers get is what is listed.** -/
theorem heard_eq_deliveries (units : List SourceUnit) : heard units = deliveries units := by
  have hlog : ∀ ds log : List (Context × Event),
      (forM ds (fun d => modify (· ++ [(d.1, d.2)])) : StateM _ Unit).run log =
        pure ((), log ++ ds) := by
    intro ds
    induction ds with
    | nil => simp
    | cons d ds ih =>
        intro log
        rw [List.forM_cons, StateT.run_bind, StateT.run_modify, pure_bind, ih]
        simp
  obtain ⟨report, hrun⟩ := uniform_listener.exists_run_eq units
  rw [heard, hrun, StateT.run_bind, hlog]
  rfl

end Sweep

/-! ### Effects -/

namespace Session

variable {α σ : Type} {g g' g'' : Graph}

/-- Programs in sequence, with the counters between them. -/
theorem Yields.run_bind {β : Type} {x : StateT σ Session α} {f : α → StateT σ Session β} {a : α}
    {b : β × σ} {s s' : σ} (hx : Yields (x.run s) g (a, s') g')
    (hf : Yields ((f a).run s') g' b g'') : Yields ((x >>= f).run s) g b g'' :=
  hx.bind hf

/-- Whatever the counters are, the program succeeds and turns one graph into the other. -/
def Turns (x : StateT σ Session α) (g : Graph) (a : α) (g' : Graph) : Prop :=
  ∀ s : σ, ∃ s', Yields (x.run s) g (a, s') g'

/-- The program succeeds and turns one graph into the other, and counters that are in step with the
one graph are in step with the other afterwards. -/
def TurnsIn (I : σ → Graph → Prop) (x : StateT σ Session α) (g : Graph) (a : α) (g' : Graph) :
    Prop :=
  ∀ s : σ, I s g → ∃ s', Yields (x.run s) g (a, s') g' ∧ I s' g'

namespace Turns

variable {β : Type} {x : StateT σ Session α} {f : α → StateT σ Session β} {a : α} {b : β}

theorem pure (a : α) : Turns (Pure.pure a : StateT σ Session α) g a g :=
  fun s => ⟨s, Yields.pure _ _⟩

theorem bind (hx : Turns x g a g') (hf : Turns (f a) g' b g'') : Turns (x >>= f) g b g'' := by
  intro s
  obtain ⟨s', hyields⟩ := hx s
  obtain ⟨s'', hyields'⟩ := hf s'
  exact ⟨s'', hyields.bind hyields'⟩

/-- A program of the session does not see the counters. -/
theorem lift {y : Session α} (hy : Yields y g a g') :
    Turns (liftM y : StateT σ Session α) g a g' :=
  fun s => ⟨s, hy.lift s⟩

/-- Counting. -/
theorem count {c : σ → σ} : Turns (modify c : StateT σ Session Unit) g () g :=
  fun s => ⟨c s, Yields.pure _ _⟩

/-- A program that turns one graph into another and builds lets the one grow into the other. -/
theorem grown (hx : Turns x g a g') {s : σ} {Q : α → Graph → Prop} (hbuilds : BuildsAt x s g Q) :
    g.Grown g' := by
  obtain ⟨s', hyields⟩ := hx s
  obtain ⟨a', s'', g'', hyields', hgrown, -⟩ := hbuilds
  rw [(hyields.unique hyields').2]
  exact hgrown

theorem turnsIn (hx : Turns x g a g') : TurnsIn (fun _ _ => True) x g a g' :=
  fun s _ => (hx s).imp fun _ hyields => ⟨hyields, trivial⟩

end Turns

namespace TurnsIn

variable {β : Type} {I : σ → Graph → Prop} {x : StateT σ Session α} {f : α → StateT σ Session β}
  {a : α} {b : β}

theorem pure (a : α) : TurnsIn I (Pure.pure a : StateT σ Session α) g a g :=
  fun s hs => ⟨s, Yields.pure _ _, hs⟩

theorem bind (hx : TurnsIn I x g a g') (hf : TurnsIn I (f a) g' b g'') :
    TurnsIn I (x >>= f) g b g'' := by
  intro s hs
  obtain ⟨s', hyields, hs'⟩ := hx s hs
  obtain ⟨s'', hyields', hs''⟩ := hf s' hs'
  exact ⟨s'', hyields.bind hyields', hs''⟩

/-- A program of the session does not see the counters. -/
theorem lift {y : Session α} (hy : Yields y g a g') (hI : ∀ s, I s g → I s g') :
    TurnsIn I (liftM y : StateT σ Session α) g a g' :=
  fun s hs => ⟨s, hy.lift s, hI s hs⟩

/-- A program of the session that reads the graph. -/
theorem read {y : Session α} (hy : Yields y g a g) :
    TurnsIn I (liftM y : StateT σ Session α) g a g :=
  lift hy fun _ hs => hs

/-- A program of the session that is counted. -/
theorem counted {y : Session Unit} (hy : Yields y g () g') {c : σ → σ}
    (hI : ∀ s, I s g → I (c s) g') :
    TurnsIn I (do liftM y; modify c : StateT σ Session Unit) g () g' :=
  fun s hs => ⟨c s, (hy.lift s).bind (Yields.pure _ _), hI s hs⟩

/-- A loop turns graphs as its body does, as long as the graphs stay such that the body can. -/
theorem forM {xs : List β} {f : β → StateT σ Session Unit} {E : Graph → β → Graph}
    {J : Graph → Prop} (hf : ∀ x ∈ xs, ∀ g, J g → TurnsIn I (f x) g () (E g x) ∧ J (E g x))
    (hg : J g) : TurnsIn I (xs.forM f) g () (xs.foldl E g) ∧ J (xs.foldl E g) := by
  induction xs generalizing g with
  | nil => exact ⟨pure (), hg⟩
  | cons x xs ih =>
      obtain ⟨hturns, hJ⟩ := hf x List.mem_cons_self g hg
      obtain ⟨hrest, hJ'⟩ := ih (fun y hy => hf y (List.mem_cons_of_mem _ hy)) hJ
      exact ⟨hturns.bind hrest, hJ'⟩

/-- Counters that have nothing to be in step with. -/
theorem turns (hx : TurnsIn (fun _ _ => True) x g a g') : Turns x g a g' :=
  fun s => (hx s trivial).imp fun _ h => h.1

end TurnsIn

end Session

namespace Sweep

open Session

variable {σ : Type} {s : Sweep (StateT σ Session)} {E : Context → Event → Graph → Graph}
  {I : σ → Graph → Prop}

/-- The handlers of a sweep have effects, go into every type they get, and do nothing at its end. -/
structure Acting (s : Sweep (StateT σ Session)) (E : Context → Event → Graph → Graph) : Prop where
  enter : ∀ c d g, g.Closed → Turns (s.enter c d) g .descend (E c (.entered d) g)
  exit : ∀ c d g, Turns (s.exit c d) g () g
  method : ∀ c d g, g.Closed → Turns (s.method c d) g () (E c (.method d) g)
  field : ∀ c d g, g.Closed → Turns (s.field c d) g () (E c (.field d) g)
  invocation : ∀ c i g, g.Closed → Turns (s.invocation c i) g () (E c (.invocation (some i)) g)
  returning : ∀ c r g, g.Closed → Turns (s.returning c r) g () (E c (.returning r) g)

/-- The handlers of a sweep have effects, go into every type they get, and do nothing at its end;
and they keep the counters in step with the graph. -/
structure Tallying (s : Sweep (StateT σ Session)) (E : Context → Event → Graph → Graph)
    (I : σ → Graph → Prop) : Prop where
  enter : ∀ c d g, g.Closed → TurnsIn I (s.enter c d) g .descend (E c (.entered d) g)
  exit : ∀ c d g, TurnsIn I (s.exit c d) g () g
  method : ∀ c d g, g.Closed → TurnsIn I (s.method c d) g () (E c (.method d) g)
  field : ∀ c d g, g.Closed → TurnsIn I (s.field c d) g () (E c (.field d) g)
  invocation : ∀ c i g, g.Closed → TurnsIn I (s.invocation c i) g () (E c (.invocation (some i)) g)
  returning : ∀ c r g, g.Closed → TurnsIn I (s.returning c r) g () (E c (.returning r) g)

/-- Handlers that keep their counters in step with nothing. -/
theorem Acting.tallying (h : s.Acting E) : s.Tallying E fun _ _ => True where
  enter c d g hg := (h.enter c d g hg).turnsIn
  exit c d g := (h.exit c d g).turnsIn
  method c d g hg := (h.method c d g hg).turnsIn
  field c d g hg := (h.field c d g hg).turnsIn
  invocation c i g hg := (h.invocation c i g hg).turnsIn
  returning c r g hg := (h.returning c r g hg).turnsIn

theorem Acting.of_tallying (h : s.Tallying E fun _ _ => True) : s.Acting E where
  enter c d g hg := (h.enter c d g hg).turns
  exit c d g := (h.exit c d g).turns
  method c d g hg := (h.method c d g hg).turns
  field c d g hg := (h.field c d g hg).turns
  invocation c i g hg := (h.invocation c i g hg).turns
  returning c r g hg := (h.returning c r g hg).turns

/-- What a sweep that goes into every type makes of a graph. -/
def apply (E : Context → Event → Graph → Graph) (ds : List (Context × Event)) (g : Graph) :
    Graph :=
  ds.foldl (fun g d => E d.1 d.2 g) g

theorem apply_append (E : Context → Event → Graph → Graph) (ds ds' : List (Context × Event))
    (g : Graph) : apply E (ds ++ ds') g = apply E ds' (apply E ds g) :=
  List.foldl_append

namespace Acting

/-- An event that is handled lets the graph grow, if the handlers build. -/
theorem grown (h : s.Acting E) (hs : s.Building) [Inhabited σ] (c : Context) {e : Event}
    (he : isHandled e = true) {g : Graph} (hg : g.Closed) : g.Grown (E c e g) := by
  cases e with
  | importing i => exact absurd he Bool.false_ne_true
  | entered d => exact (h.enter c d g hg).grown (hs.enter c d default g hg)
  | exited => exact absurd he Bool.false_ne_true
  | method d => exact (h.method c d g hg).grown (hs.method c d default g hg)
  | field d => exact (h.field c d g hg).grown (hs.field c d default g hg)
  | invocation i =>
      cases i with
      | none => exact absurd he Bool.false_ne_true
      | some i => exact (h.invocation c i g hg).grown (hs.invocation c i default g hg)
  | returning r => exact (h.returning c r g hg).grown (hs.returning c r default g hg)

/-- What each event preserves while the graph grows, any list of events preserves. -/
theorem apply_induction (h : s.Acting E) (hs : s.Building) [Inhabited σ]
    {ds : List (Context × Event)} (hds : ∀ c e, (c, e) ∈ ds → isHandled e = true) {g₀ : Graph}
    (hg₀ : g₀.Closed) {I : Graph → Prop} (hI₀ : I g₀)
    (hI : ∀ c e, (c, e) ∈ ds → ∀ g, g₀.Grown g → I g → I (E c e g)) :
    I (apply E ds g₀) ∧ g₀.Grown (apply E ds g₀) := by
  refine List.foldlRecOn (motive := fun g => I g ∧ g₀.Grown g) ds _ ⟨hI₀, .refl⟩ ?_
  rintro g ⟨hg, hgrown⟩ ⟨c, e⟩ hmem
  exact ⟨hI c e hmem g hgrown hg, hgrown.trans (h.grown hs c (hds c e hmem) (hgrown.closed hg₀))⟩

/-- Delivered events let the graph grow. -/
theorem grown_apply (h : s.Acting E) (hs : s.Building) [Inhabited σ]
    {ds : List (Context × Event)} (hds : ∀ c e, (c, e) ∈ ds → isHandled e = true) {g : Graph}
    (hg : g.Closed) : g.Grown (apply E ds g) :=
  (h.apply_induction hs hds hg (I := fun _ => True) trivial fun _ _ _ _ _ _ => trivial).2

/-- An event among others meets a graph that has grown, and what it leaves grows further. -/
theorem exists_of_mem (h : s.Acting E) (hs : s.Building) [Inhabited σ]
    {ds : List (Context × Event)} (hds : ∀ c e, (c, e) ∈ ds → isHandled e = true) {c : Context}
    {e : Event} (hmem : (c, e) ∈ ds) {g₀ : Graph} (hg₀ : g₀.Closed) :
    ∃ g, g₀.Grown g ∧ (E c e g).Grown (apply E ds g₀) := by
  obtain ⟨before, later, rfl⟩ := List.append_of_mem hmem
  have hbefore : g₀.Grown (apply E before g₀) :=
    h.grown_apply hs (fun c e he => hds c e (List.mem_append_left _ he)) hg₀
  have hevent : g₀.Grown (E c e (apply E before g₀)) :=
    hbefore.trans (h.grown hs c (hds c e hmem) (hbefore.closed hg₀))
  have hlater : (E c e (apply E before g₀)).Grown
      (apply E later (E c e (apply E before g₀))) :=
    h.grown_apply hs (fun c e he => hds c e (List.mem_append_right _ (List.mem_cons_of_mem _ he)))
      (hevent.closed hg₀)
  refine ⟨_, hbefore, ?_⟩
  rw [apply_append]
  exact hlater

/-- What holds after any events held before them or is brought about by one of them, if each event
by itself brings it about or not, wherever it stands between the two graphs. -/
theorem apply_iff (h : s.Acting E) (hs : s.Building) [Inhabited σ] {ds : List (Context × Event)}
    (hds : ∀ c e, (c, e) ∈ ds → isHandled e = true) {g₀ : Graph} (hg₀ : g₀.Closed)
    {I : Graph → Prop} {Q : Context → Event → Prop}
    (hI : ∀ c e, (c, e) ∈ ds → ∀ g, g₀.Grown g → g.Grown (E c e g) →
      (E c e g).Grown (apply E ds g₀) → (I (E c e g) ↔ I g ∨ Q c e)) :
    I (apply E ds g₀) ↔ I g₀ ∨ ∃ c e, (c, e) ∈ ds ∧ Q c e := by
  induction ds generalizing g₀ with
  | nil => simp [apply]
  | cons d ds ih =>
      obtain ⟨c, e⟩ := d
      have htail : ∀ c e, (c, e) ∈ ds → isHandled e = true :=
        fun c e he => hds c e (List.mem_cons_of_mem _ he)
      have hgrown : g₀.Grown (E c e g₀) := h.grown hs c (hds c e List.mem_cons_self) hg₀
      have hlater : (E c e g₀).Grown (apply E ds (E c e g₀)) :=
        h.grown_apply hs htail (hgrown.closed hg₀)
      have hfirst : I (E c e g₀) ↔ I g₀ ∨ Q c e :=
        hI c e List.mem_cons_self g₀ .refl hgrown hlater
      have hrest : I (apply E ds (E c e g₀)) ↔
          I (E c e g₀) ∨ ∃ c e, (c, e) ∈ ds ∧ Q c e :=
        ih htail (hgrown.closed hg₀) fun c' e' he g hg =>
          hI c' e' (List.mem_cons_of_mem _ he) g (hgrown.trans hg)
      have happly : apply E ((c, e) :: ds) g₀ = apply E ds (E c e g₀) := rfl
      rw [happly, hrest, hfirst, or_assoc]
      simp only [List.mem_cons, Prod.mk.injEq, or_and_right, exists_or, and_assoc,
        exists_and_left, exists_eq_left]

end Acting

/-! ### Counters -/

namespace Tallying

/-- A handler that gets its event outside of skipped types only. -/
theorem turnsIn_unless {p : Progress} {x : StateT σ Session Unit} {g g' : Graph}
    (hx : TurnsIn I x g () g') :
    TurnsIn I (if p.depth > 0 then pure p else do x; pure p) g p
      (if p.depth == 0 then g' else g) := by
  by_cases hdepth : p.depth = 0
  · rw [if_neg (by omega), if_pos (beq_iff_eq.mpr hdepth)]
    exact hx.bind (.pure p)
  · rw [if_pos (Nat.pos_of_ne_zero hdepth), if_neg (by simpa using hdepth)]
    exact .pure p

/-- Past the start of a type that is not inside a skipped one. -/
theorem turnsIn_startType (h : s.Tallying E I) {p : Progress} (hp : p.depth = 0) (d : TypeDecl)
    {g : Graph} (hg : g.Closed) :
    TurnsIn I (s.startType p d) g (p.after (.entered d))
      (if p.delivers (.entered d) then E p.context (.entered d) g else g) := by
  unfold startType decideVisit
  cases hd : d.exclusion? with
  | some _ =>
      simp only [Progress.after, Progress.delivers, hp, hd]
      exact (TurnsIn.pure Visit.skip).bind (.pure _)
  | none =>
      simp only [Progress.after, Progress.delivers, hp, hd]
      exact (h.enter p.context d g hg).bind (.pure _)

/-- Past the end of a type that is not inside a skipped one. -/
theorem turnsIn_endType (h : s.Tallying E I) {p : Progress} (hp : p.depth = 0) {g : Graph} :
    TurnsIn I (s.endType p) g (p.after .exited) g := by
  unfold endType
  rcases p with ⟨⟨imports, types⟩, depth, visited, skipped⟩
  obtain rfl : depth = 0 := hp
  cases types with
  | nil => exact .pure _
  | cons d types => exact (h.exit _ d g).bind (.pure _)

/-- Past one event, and the graph has met the event if it was delivered. -/
theorem turnsIn_step (h : s.Tallying E I) (p : Progress) (e : Event) {g : Graph} (hg : g.Closed) :
    TurnsIn I (s.step p e) g (p.after e) (if p.delivers e then E p.context e g else g) := by
  cases e with
  | importing i =>
      show TurnsIn I (if i.isStatic then Pure.pure p else Pure.pure _) g
        (if i.isStatic then p else _) g
      split
      · exact .pure _
      · exact .pure _
  | entered d =>
      by_cases hdepth : p.depth = 0
      · have hstep : s.step p (.entered d) = s.startType p d := by simp [step, hdepth]
        rw [hstep]
        exact h.turnsIn_startType hdepth d hg
      · have hpos := Nat.pos_of_ne_zero hdepth
        simpa [step, Progress.after, Progress.delivers, hdepth, hpos] using TurnsIn.pure _
  | exited =>
      by_cases hdepth : p.depth = 0
      · have hstep : s.step p .exited = s.endType p := by simp [step, hdepth]
        rw [hstep]
        exact h.turnsIn_endType hdepth
      · have hpos := Nat.pos_of_ne_zero hdepth
        simpa [step, Progress.after, Progress.delivers, hpos] using TurnsIn.pure _
  | method d => exact turnsIn_unless (h.method p.context d g hg)
  | field d => exact turnsIn_unless (h.field p.context d g hg)
  | invocation i =>
      cases i with
      | none => exact TurnsIn.pure p
      | some i => exact turnsIn_unless (h.invocation p.context i g hg)
  | returning r => exact turnsIn_unless (h.returning p.context r g hg)

/-- Through any events, the graph meets those that are delivered, in order. -/
theorem turnsIn_events (h : s.Tallying E I) (hE : s.Acting E) (hs : s.Building) [Inhabited σ]
    (es : List Event) (p : Progress) {g : Graph} (hg : g.Closed) :
    TurnsIn I (es.foldlM s.step p) g (es.foldl Progress.after p)
      (apply E (deliveriesFrom p es) g) := by
  induction es generalizing p g with
  | nil => exact .pure p
  | cons e es ih =>
      have hstep := h.turnsIn_step p e hg
      rw [List.foldlM_cons, deliveriesFrom]
      by_cases he : p.delivers e = true
      · rw [if_pos he] at hstep ⊢
        have hgrown := hE.grown hs p.context (isHandled_of_delivers he) hg
        exact hstep.bind (ih (p.after e) (hgrown.closed hg))
      · rw [if_neg he] at hstep ⊢
        exact hstep.bind (ih (p.after e) hg)

/-- A sweep keeps its counters in step with what the effects of its handlers make of the graph. -/
theorem turnsIn_run (h : s.Tallying E I) (hE : s.Acting E) (hs : s.Building) [Inhabited σ]
    (units : List SourceUnit) {g : Graph} (hg : g.Closed) :
    ∃ report, TurnsIn I (s.run units) g report (apply E (deliveries units) g) := by
  unfold run
  generalize ({ pass := s.name } : Report) = r
  induction units generalizing r g with
  | nil => exact ⟨r, .pure r⟩
  | cons u units ih =>
      have hunit : TurnsIn I (s.runUnit r u) g _ (apply E (deliveriesFrom {} u.events) g) :=
        (h.turnsIn_events hE hs u.events {} hg).bind (.pure _)
      have hgrown : g.Grown (apply E (deliveriesFrom {} u.events) g) :=
        hE.grown_apply hs (fun _ _ => isHandled_of_mem_deliveriesFrom) hg
      obtain ⟨report, hrest⟩ := ih (hgrown.closed hg) _
      have happly : apply E (deliveries (u :: units)) g =
          apply E (deliveries units) (apply E (deliveriesFrom {} u.events) g) := by
        rw [deliveries_cons, apply_append]
      rw [happly, List.foldlM_cons]
      exact ⟨report, hunit.bind hrest⟩

end Tallying

/-- **A sweep applies the effects of its handlers to the deliveries, in order.** -/
theorem Acting.turns_run (h : s.Acting E) (hs : s.Building) [Inhabited σ] (units : List SourceUnit)
    {g : Graph} (hg : g.Closed) :
    ∃ report, Turns (s.run units) g report (apply E (deliveries units) g) := by
  obtain ⟨report, hrun⟩ := h.tallying.turnsIn_run h hs units hg
  exact ⟨report, hrun.turns⟩

end Sweep

end Variability
