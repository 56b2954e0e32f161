import Variability.Proofs.Declared
import Mathlib.Algebra.GroupWithZero.Nat
import Mathlib.Algebra.Order.BigOperators.Group.List
import Mathlib.Algebra.Order.Group.Nat
import Mathlib.Logic.Relation

/-!
# Looking up members finds the nearest declaration

A member is looked up by a search that keeps a queue of names and a list of the names that it has
visited. A name may be in the queue several times, supertypes may form cycles, and they may lead to
names that the index does not know.

The search is stated with a bound on its steps. Without the bound it is a loop, here the relation
`Index.Runs`, which has a derivation only where the loop ends. It always ends, because the queue is
filled from each type once, and the bound is never what ends it (`Index.runs_search`).

What it finds is described by the generations above a name: the name itself, its supertypes, their
supertypes, each time superclass first, and with all repetitions. A search without a list of visited
names would go through all generations in turn, on cycles without end. The search with the list
leaves out what it has seen. Each name that it leaves out has been visited or stands nearer to the
front of its queue (`Thins`), and so nothing that it leaves out could have been a first answer.

## Main results

* `Index.runs_search`: the search ends by itself.
* `Index.selects_nearest`: it selects the first answer of the nearest generation that has one.
* `Index.find_nearest`: methods and fields are looked up so.
-/

namespace Variability.Project.Index

open Java (FileSyntax)

variable {α β : Type} {ix : Index} {hit : TypeInfo → Option α} {start q : String}
  {queue visited : List String}

/-! ### The loop -/

/-- The search as a loop, with a queue and the visited names, and what it answers when it ends. -/
inductive Runs (ix : Index) (hit : TypeInfo → Option α) :
    List String → List String → Option α → Prop
  | empty {visited : List String} : Runs ix hit [] visited none
  | again {q : String} {queue visited : List String} {a : Option α} (hq : q ∈ visited)
      (h : Runs ix hit queue visited a) : Runs ix hit (q :: queue) visited a
  | unknown {q : String} {queue visited : List String} {a : Option α} (hq : q ∉ visited)
      (hget : ix.get? q = none) (h : Runs ix hit queue (q :: visited) a) :
      Runs ix hit (q :: queue) visited a
  | found {q : String} {queue visited : List String} {t : TypeInfo} {a : α} (hq : q ∉ visited)
      (hget : ix.get? q = some t) (ha : hit t = some a) :
      Runs ix hit (q :: queue) visited (some a)
  | missed {q : String} {queue visited : List String} {t : TypeInfo} {a : Option α}
      (hq : q ∉ visited) (hget : ix.get? q = some t) (hnone : hit t = none)
      (h : Runs ix hit (queue ++ ix.supertypeNames q) (q :: visited) a) :
      Runs ix hit (q :: queue) visited a

/-- How many steps of the loop a type can still cause: none when its name has been visited, and
otherwise one for its superclass and one for each of its interfaces. -/
def weight (visited : List String) (t : TypeInfo) : Nat :=
  if t.qualified ∈ visited then 0 else 1 + t.interfaces.length

/-- How many steps of the loop all types together can still cause. -/
def unseen (ix : Index) (visited : List String) : Nat := (ix.types.map (weight visited)).sum

theorem weight_cons_le (q : String) (visited : List String) (t : TypeInfo) :
    weight (q :: visited) t ≤ weight visited t := by
  unfold weight
  by_cases ht : t.qualified ∈ visited <;> by_cases hq : t.qualified = q <;> simp [ht, hq]

/-- Visiting a name does not add steps. -/
theorem unseen_cons_le (ix : Index) (q : String) (visited : List String) :
    ix.unseen (q :: visited) ≤ ix.unseen visited :=
  List.sum_le_sum fun t _ => weight_cons_le q visited t

/-- Visiting a type takes its own steps away. -/
theorem unseen_cons_add_le {t : TypeInfo} (hget : ix.get? q = some t) (hq : q ∉ visited) :
    ix.unseen (q :: visited) + (1 + t.interfaces.length) ≤ ix.unseen visited := by
  obtain ⟨ht, rfl⟩ := mem_of_get hget
  obtain ⟨before, after, htypes⟩ := List.append_of_mem ht
  have hle : ∀ us : List TypeInfo, (us.map (weight (t.qualified :: visited))).sum ≤
      (us.map (weight visited)).sum :=
    fun us => List.sum_le_sum fun u _ => weight_cons_le t.qualified visited u
  have hbefore := hle before
  have hafter := hle after
  have hvisited : weight (t.qualified :: visited) t = 0 := if_pos List.mem_cons_self
  have hnew : weight visited t = 1 + t.interfaces.length := if_neg hq
  rw [unseen, unseen, htypes]
  simp only [List.map_append, List.map_cons, List.sum_append, List.sum_cons, hvisited, hnew]
  omega

theorem length_supertypeNames_le {t : TypeInfo} (hget : ix.get? q = some t) :
    (ix.supertypeNames q).length ≤ 1 + t.interfaces.length := by
  simp only [supertypeNames, supertypes, hget, List.length_map, List.length_append]
  have hsuperclass := Option.length_toList_le
    (o := t.superclass.bind (ix.resolveType? (ix.scopeOf t)))
  have hinterfaces := List.length_filterMap_le (ix.resolveType? (ix.scopeOf t)) t.interfaces
  omega

/-- **The search ends by itself**, if it may take as many steps as names are in the queue or can
still get there. -/
theorem runs_search {fuel : Nat} (hfuel : queue.length + ix.unseen visited ≤ fuel) :
    ix.Runs hit queue visited (ix.search hit fuel queue visited) := by
  induction fuel generalizing queue visited with
  | zero =>
      obtain rfl : queue = [] := List.length_eq_zero_iff.mp (by omega)
      exact .empty
  | succ fuel ih =>
      cases queue with
      | nil => exact .empty
      | cons q queue =>
          rw [List.length_cons] at hfuel
          rw [search]
          split
          · rename_i hq
            exact .again (List.contains_iff_mem.mp hq) (ih (by omega))
          · rename_i hq
            have hq : q ∉ visited := fun h => hq (List.contains_iff_mem.mpr h)
            split
            · rename_i hget
              have hle := ix.unseen_cons_le q visited
              exact .unknown hq hget (ih (by omega))
            · rename_i t hget
              split
              · rename_i a ha
                exact .found hq hget ha
              · rename_i hnone
                -- The supertypes that come into the queue are paid for by the type itself.
                have hless := unseen_cons_add_le hget hq
                have hlength := length_supertypeNames_le hget
                refine .missed hq hget hnone (ih ?_)
                rw [List.length_append]
                omega

/-- The bound of a search is enough. -/
theorem runs_nearest (ix : Index) (hit : TypeInfo → Option α) (start : String) :
    ix.Runs hit [start] [] (ix.nearest hit start) := by
  refine runs_search ?_
  have hweight : weight [] = fun t => 1 + t.interfaces.length := rfl
  rw [searchBound, unseen, hweight, List.length_singleton, List.sum_eq_foldl]

/-! ### Generations -/

/-- The names above a name, generation by generation, in the order in which the names below them
give their superclasses and interfaces. -/
def generation (ix : Index) (start : String) : Nat → List String
  | 0 => [start]
  | n + 1 => (ix.generation start n).flatMap ix.supertypeNames

/-- A name is reached from another one over supertypes, in any number of steps. -/
def Above (ix : Index) : String → String → Prop :=
  Relation.ReflTransGen fun below above => above ∈ ix.supertypeNames below

/-- What is above a name is in one of its generations. -/
theorem above_iff {p : String} : ix.Above start p ↔ ∃ n, p ∈ ix.generation start n := by
  constructor
  · intro h
    induction h with
    | refl => exact ⟨0, List.mem_singleton.mpr rfl⟩
    | tail _ hstep ih =>
        obtain ⟨n, hn⟩ := ih
        exact ⟨n + 1, List.mem_flatMap.mpr ⟨_, hn, hstep⟩⟩
  · rintro ⟨n, hn⟩
    induction n generalizing p with
    | zero =>
        obtain rfl := List.mem_singleton.mp hn
        exact .refl
    | succ n ih =>
        obtain ⟨below, hbelow, hstep⟩ := List.mem_flatMap.mp hn
        exact (ih hbelow).tail hstep

/-- A place in the generations above a name: one of them, cut into what has been passed and what is
still ahead. -/
structure Front (ix : Index) (start : String) where
  depth : Nat
  passed : List String
  ahead : List String
  eq : ix.generation start depth = passed ++ ahead

namespace Front

variable (F : Front ix start) {p : String} {rest : List String}

/-- The queue of a search that leaves nothing out: the rest of the generation, and what the passed
part gives to the next one. -/
def pending : List String := F.ahead ++ F.passed.flatMap ix.supertypeNames

/-- A name stands before the place. -/
def Passes (p : String) : Prop := p ∈ F.passed ∨ ∃ n < F.depth, p ∈ ix.generation start n

variable {F}

/-- The next name stands at the front of its generation. Where a generation has been passed, this is
the generation after it. -/
theorem exists_ahead (h : F.pending = p :: rest) :
    ∃ F' : Front ix start, F'.pending = F.pending ∧ (∀ x, F'.Passes x → F.Passes x) ∧
      ∃ tail, F'.ahead = p :: tail := by
  obtain ⟨depth, passed, ahead, heq⟩ := F
  cases ahead with
  | cons y tail =>
      obtain ⟨rfl, -⟩ := List.cons_eq_cons.mp h
      exact ⟨⟨depth, passed, y :: tail, heq⟩, rfl, fun _ hx => hx, tail, rfl⟩
  | nil =>
      -- All of this generation has been passed, so what is pending is the next one.
      rw [List.append_nil] at heq
      have hnext : ix.generation start (depth + 1) = [] ++ passed.flatMap ix.supertypeNames := by
        rw [generation, heq, List.nil_append]
      refine ⟨⟨depth + 1, [], passed.flatMap ix.supertypeNames, hnext⟩, ?_, ?_, rest, h⟩
      · simp [pending]
      · rintro x (hx | ⟨n, hn, hx⟩)
        · exact absurd hx List.not_mem_nil
        · rcases Nat.lt_succ_iff_lt_or_eq.mp hn with hn | rfl
          · exact Or.inr ⟨n, hn, hx⟩
          · exact Or.inl (heq ▸ hx)

/-- Going past the next name puts its supertypes at the end. -/
theorem exists_past (h : F.pending = p :: rest) :
    ∃ F' : Front ix start, F'.pending = rest ++ ix.supertypeNames p ∧
      ∀ x, F'.Passes x → F.Passes x ∨ x = p := by
  obtain ⟨F, hsame, hpasses, tail, hahead⟩ := exists_ahead h
  obtain ⟨depth, passed, ahead, heq⟩ := F
  obtain rfl : ahead = p :: tail := hahead
  have hrest : tail ++ passed.flatMap ix.supertypeNames = rest :=
    (List.cons_eq_cons.mp (hsame.trans h)).2
  refine ⟨⟨depth, passed ++ [p], tail, by rw [heq, List.append_assoc]; rfl⟩, ?_, ?_⟩
  · rw [← hrest]
    simp [pending]
  · rintro x (hx | hx)
    · rcases List.mem_append.mp hx with hx | hx
      · exact Or.inl (hpasses x (Or.inl hx))
      · exact Or.inr (List.mem_singleton.mp hx)
    · exact Or.inl (hpasses x (Or.inr hx))

/-- Going past several names. -/
theorem exists_pastAll {ps : List String} (h : F.pending = ps ++ rest) :
    ∃ F' : Front ix start, F'.pending = rest ++ ps.flatMap ix.supertypeNames ∧
      ∀ x, F'.Passes x → F.Passes x ∨ x ∈ ps := by
  induction ps generalizing F rest with
  | nil => exact ⟨F, by rw [h]; simp, fun x hx => Or.inl hx⟩
  | cons p ps ih =>
      obtain ⟨F₁, hpending₁, hpasses₁⟩ := exists_past h
      obtain ⟨F₂, hpending₂, hpasses₂⟩ := ih (hpending₁.trans (List.append_assoc ..))
      refine ⟨F₂, ?_, fun x hx => ?_⟩
      · rw [hpending₂, List.flatMap_cons, List.append_assoc]
      · rcases hpasses₂ x hx with hx | hx
        · rcases hpasses₁ x hx with hx | rfl
          · exact Or.inl hx
          · exact Or.inr List.mem_cons_self
        · exact Or.inr (List.mem_cons_of_mem _ hx)

end Front

/-! ### What a search leaves out -/

/-- A queue is what remains of `pending` when names are left out that are in `seen` or stand nearer
to the front. -/
inductive Thins : List String → List String → List String → Prop
  | nil {seen : List String} : Thins seen [] []
  | keep {p : String} {seen queue pending : List String} (h : Thins (p :: seen) queue pending) :
      Thins seen (p :: queue) (p :: pending)
  | drop {p : String} {seen queue pending : List String} (hp : p ∈ seen)
      (h : Thins seen queue pending) : Thins seen queue (p :: pending)

namespace Thins

variable {seen pending : List String}

/-- More may be left out when more has been seen. -/
theorem mono (h : Thins seen queue pending) {seen' : List String}
    (hseen : ∀ p ∈ seen, p ∈ seen') : Thins seen' queue pending := by
  induction h generalizing seen' with
  | nil => exact .nil
  | keep _ ih =>
      refine .keep (ih fun x hx => ?_)
      rcases List.mem_cons.mp hx with rfl | hx
      · exact List.mem_cons_self
      · exact List.mem_cons_of_mem _ (hseen x hx)
  | drop hp _ ih => exact .drop (hseen _ hp) (ih hseen)

/-- The same names may be added at the end. -/
theorem append (h : Thins seen queue pending) (ps : List String) :
    Thins seen (queue ++ ps) (pending ++ ps) := by
  induction h with
  | nil =>
      rename_i seen
      induction ps generalizing seen with
      | nil => exact .nil
      | cons p ps ih => exact .keep ih
  | keep _ ih => exact .keep ih
  | drop hp _ ih => exact .drop hp ih

/-- Names that have been seen or are in the queue may be left out at the end. -/
theorem append_right (h : Thins seen queue pending) {ps : List String}
    (hps : ∀ p ∈ ps, p ∈ seen ∨ p ∈ queue) : Thins seen queue (pending ++ ps) := by
  induction h with
  | nil =>
      rename_i seen
      induction ps with
      | nil => exact .nil
      | cons p ps ih =>
          have hp : p ∈ seen := by simpa using hps p List.mem_cons_self
          exact .drop hp (ih fun x hx => hps x (List.mem_cons_of_mem _ hx))
  | keep _ ih =>
      refine .keep (ih fun x hx => ?_)
      rcases hps x hx with hx | hx
      · exact Or.inl (List.mem_cons_of_mem _ hx)
      · rcases List.mem_cons.mp hx with rfl | hx
        · exact Or.inl List.mem_cons_self
        · exact Or.inr hx
  | drop hp _ ih => exact .drop hp (ih hps)

/-- What stands before the first name of the queue has been seen. -/
theorem exists_append (h : Thins seen (q :: queue) pending) :
    ∃ skipped rest, pending = skipped ++ q :: rest ∧ (∀ p ∈ skipped, p ∈ seen) ∧
      Thins (q :: seen) queue rest := by
  generalize hqueue : q :: queue = queue' at h
  induction h with
  | nil => cases hqueue
  | keep h _ =>
      cases hqueue
      exact ⟨[], _, rfl, fun p hp => absurd hp List.not_mem_nil, h⟩
  | @drop p _ _ _ hp _ ih =>
      obtain ⟨skipped, rest, rfl, hskipped, h⟩ := ih hqueue
      refine ⟨p :: skipped, rest, rfl, fun x hx => ?_, h⟩
      rcases List.mem_cons.mp hx with rfl | hx
      · exact hp
      · exact hskipped x hx

end Thins

/-! ### The invariant -/

/-- The type of a name, if there is one, has no answer. -/
def Lacks (ix : Index) (hit : TypeInfo → Option α) (p : String) : Prop :=
  ∀ t, ix.get? p = some t → hit t = none

/-- What holds when the loop comes round. The queue is a thinned form of what is pending at some
place of the generations, and there was no answer before this place. The supertypes of visited names
have been visited or are in the queue. -/
structure Progress (ix : Index) (hit : TypeInfo → Option α) (start : String)
    (queue visited : List String) : Prop where
  place : ∃ F : Front ix start, Thins visited queue F.pending ∧ ∀ p, F.Passes p → ix.Lacks hit p
  lacks : ∀ p ∈ visited, ix.Lacks hit p
  closed : ∀ p ∈ visited, ∀ s ∈ ix.supertypeNames p, s ∈ visited ∨ s ∈ queue
  start : start ∈ visited ∨ start ∈ queue

namespace Progress

/-- A search begins at the first generation. -/
theorem init (ix : Index) (hit : TypeInfo → Option α) (start : String) :
    ix.Progress hit start [start] [] where
  place := by
    refine ⟨⟨0, [], [start], rfl⟩, .keep .nil, ?_⟩
    rintro p (hp | ⟨n, hn, -⟩)
    · exact absurd hp List.not_mem_nil
    · exact absurd hn (Nat.not_lt_zero n)
  lacks := fun p hp => absurd hp List.not_mem_nil
  closed := fun p hp => absurd hp List.not_mem_nil
  start := Or.inr List.mem_cons_self

/-- Without an answer, the place moves past the next name in the queue, and past what was left out
before it. -/
theorem exists_past (H : ix.Progress hit start (q :: queue) visited) (hlacks : ix.Lacks hit q) :
    ∃ (F : Front ix start) (skipped rest : List String),
      F.pending = rest ++ skipped.flatMap ix.supertypeNames ++ ix.supertypeNames q ∧
      (∀ p ∈ skipped, p ∈ visited) ∧ Thins (q :: visited) queue rest ∧
      ∀ p, F.Passes p → ix.Lacks hit p := by
  obtain ⟨F, hthins, hpasses⟩ := H.place
  obtain ⟨skipped, rest, hpending, hskipped, hrest⟩ := hthins.exists_append
  have hthrough : F.pending = (skipped ++ [q]) ++ rest := by
    rw [hpending, List.append_assoc]
    rfl
  obtain ⟨F', hpending', hpasses'⟩ := Front.exists_pastAll hthrough
  refine ⟨F', skipped, rest, ?_, hskipped, hrest, fun p hp => ?_⟩
  · rw [hpending', List.flatMap_append, List.flatMap_singleton, List.append_assoc]
  · rcases hpasses' p hp with hp | hp
    · exact hpasses p hp
    · rcases List.mem_append.mp hp with hp | hp
      · exact H.lacks p (hskipped p hp)
      · exact List.mem_singleton.mp hp ▸ hlacks

/-- A visited name can be taken from the queue: it gave its supertypes to the queue before. -/
theorem again (H : ix.Progress hit start (q :: queue) visited) (hq : q ∈ visited) :
    ix.Progress hit start queue visited := by
  have hqueue : ∀ p, p ∈ visited ∨ p ∈ q :: queue → p ∈ visited ∨ p ∈ queue := by
    rintro p (hp | hp)
    · exact Or.inl hp
    · rcases List.mem_cons.mp hp with rfl | hp
      · exact Or.inl hq
      · exact Or.inr hp
  have habove : ∀ p ∈ visited, ∀ s ∈ ix.supertypeNames p, s ∈ visited ∨ s ∈ queue :=
    fun p hp s hs => hqueue s (H.closed p hp s hs)
  refine ⟨?_, H.lacks, habove, hqueue _ H.start⟩
  obtain ⟨F, skipped, rest, hpending, hskipped, hrest, hpasses⟩ := H.exists_past (H.lacks q hq)
  have hthins : Thins visited queue rest := by
    refine hrest.mono fun p hp => ?_
    rcases List.mem_cons.mp hp with rfl | hp
    · exact hq
    · exact hp
  refine ⟨F, ?_, hpasses⟩
  rw [hpending]
  refine (hthins.append_right fun s hs => ?_).append_right (habove q hq)
  obtain ⟨p, hp, hs⟩ := List.mem_flatMap.mp hs
  exact habove p (hskipped p hp) s hs

/-- A name without an answer is visited, and its supertypes come into the queue. -/
theorem missed (H : ix.Progress hit start (q :: queue) visited) (hlacks : ix.Lacks hit q) :
    ix.Progress hit start (queue ++ ix.supertypeNames q) (q :: visited) := by
  have hqueue : ∀ p, p ∈ visited ∨ p ∈ q :: queue → p ∈ q :: visited ∨ p ∈ queue := by
    rintro p (hp | hp)
    · exact Or.inl (List.mem_cons_of_mem _ hp)
    · rcases List.mem_cons.mp hp with rfl | hp
      · exact Or.inl List.mem_cons_self
      · exact Or.inr hp
  have hmore : ∀ p, p ∈ visited ∨ p ∈ q :: queue →
      p ∈ q :: visited ∨ p ∈ queue ++ ix.supertypeNames q :=
    fun p hp => (hqueue p hp).imp_right (List.mem_append_left _)
  constructor
  case place =>
    obtain ⟨F, skipped, rest, hpending, hskipped, hrest, hpasses⟩ := H.exists_past hlacks
    refine ⟨F, ?_, hpasses⟩
    rw [hpending]
    refine (hrest.append_right fun s hs => ?_).append _
    obtain ⟨p, hp, hs⟩ := List.mem_flatMap.mp hs
    exact hqueue s (H.closed p (hskipped p hp) s hs)
  case lacks =>
    intro p hp
    rcases List.mem_cons.mp hp with rfl | hp
    · exact hlacks
    · exact H.lacks p hp
  case closed =>
    intro p hp s hs
    rcases List.mem_cons.mp hp with rfl | hp
    · exact Or.inr (List.mem_append_right _ hs)
    · exact hmore s (H.closed p hp s hs)
  case start => exact hmore _ H.start

end Progress

/-! ### The nearest answer -/

/-- A type gives the first answer of the nearest generation above a name that has one. -/
def IsNearest (ix : Index) (hit : TypeInfo → Option α) (start : String) (t : TypeInfo) (a : α) :
    Prop :=
  ∃ n before after, ix.generation start n = before ++ t.qualified :: after ∧
    ix.get? t.qualified = some t ∧ hit t = some a ∧ (∀ p ∈ before, ix.Lacks hit p) ∧
    ∀ k < n, ∀ p ∈ ix.generation start k, ix.Lacks hit p

/-- What the answer of a search means. -/
def Answers (ix : Index) (hit : TypeInfo → Option α) (start : String) : Option α → Prop
  | none => ∀ p, ix.Above start p → ix.Lacks hit p
  | some a => ∃ t, ix.IsNearest hit start t a

/-- An empty queue means that all there is has been visited. -/
theorem Progress.answers_none (H : ix.Progress hit start [] visited) :
    ix.Answers hit start none := by
  have hvisited : ∀ p, p ∈ visited ∨ p ∈ ([] : List String) → p ∈ visited :=
    fun p hp => hp.resolve_right List.not_mem_nil
  intro p hp
  refine H.lacks p ?_
  induction hp with
  | refl => exact hvisited _ H.start
  | tail _ hstep ih => exact hvisited _ (H.closed _ ih _ hstep)

/-- An answer of the next name in the queue is the nearest one. -/
theorem Progress.answers_some (H : ix.Progress hit start (q :: queue) visited) {t : TypeInfo}
    (hget : ix.get? q = some t) {a : α} (ha : hit t = some a) : ix.Answers hit start (some a) := by
  obtain ⟨-, rfl⟩ := mem_of_get hget
  obtain ⟨F, hthins, hpasses⟩ := H.place
  obtain ⟨skipped, rest, hpending, hskipped, -⟩ := hthins.exists_append
  obtain ⟨F', hpending', hpasses'⟩ := Front.exists_pastAll hpending
  obtain ⟨⟨depth, passed, ahead, heq⟩, -, hpasses'', tail, hahead⟩ := Front.exists_ahead hpending'
  have hlacks : ∀ p, p ∈ passed ∨ (∃ n < depth, p ∈ ix.generation start n) → ix.Lacks hit p := by
    intro p hp
    rcases hpasses' p (hpasses'' p hp) with hp | hp
    · exact hpasses p hp
    · exact H.lacks p (hskipped p hp)
  obtain rfl : ahead = t.qualified :: tail := hahead
  exact ⟨t, depth, passed, tail, heq, hget, ha, fun p hp => hlacks p (Or.inl hp),
    fun k hk p hp => hlacks p (Or.inr ⟨k, hk, hp⟩)⟩

theorem supertypeNames_of_unknown (hget : ix.get? q = none) : ix.supertypeNames q = [] := by
  simp [supertypeNames, supertypes, hget]

/-- **The loop answers with the nearest answer.** -/
theorem Runs.answers {a : Option α} (h : ix.Runs hit queue visited a)
    (H : ix.Progress hit start queue visited) : ix.Answers hit start a := by
  induction h with
  | empty => exact H.answers_none
  | again hq _ ih => exact ih (H.again hq)
  | @unknown q queue visited a _ hget _ ih =>
      have hlacks : ix.Lacks hit q := by
        intro t ht
        rw [hget] at ht
        cases ht
      -- The loop adds nothing to its queue here, and such a name has no supertypes to add.
      have hmissed := H.missed hlacks
      rw [supertypeNames_of_unknown hget, List.append_nil] at hmissed
      exact ih hmissed
  | found _ hget ha => exact H.answers_some hget ha
  | @missed q queue visited t a _ hget hnone _ ih =>
      refine ih (H.missed fun u hu => ?_)
      obtain rfl : t = u := Option.some.inj (hget.symm.trans hu)
      exact hnone

/-! ### The choice of a declaring type -/

/-- The types above a name are searched for what they declare, and the choice is none when none of
them declares anything, and otherwise the nearest declaration with its type. -/
structure Selects (ix : Index) (declares : TypeInfo → Option β) (start : String)
    (choice : Option (TypeInfo × β)) : Prop where
  ends : ix.Runs (fun t => (declares t).map (t, ·)) [start] [] choice
  none_iff : choice = none ↔ ∀ p, ix.Above start p → ix.Lacks declares p
  nearest : ∀ t b, choice = some (t, b) → ix.IsNearest declares start t b

theorem lacks_map {declares : TypeInfo → Option β} {p : String} :
    ix.Lacks (fun t => (declares t).map (t, ·)) p ↔ ix.Lacks declares p := by
  simp [Lacks]

/-- A nearest answer is above the name. -/
theorem IsNearest.above {t : TypeInfo} {a : α} (h : ix.IsNearest hit start t a) :
    ix.Above start t.qualified := by
  obtain ⟨n, before, after, heq, -⟩ := h
  exact above_iff.mpr ⟨n, heq ▸ List.mem_append_right _ List.mem_cons_self⟩

/-- **A search for a declaration selects the nearest.** -/
theorem selects_nearest (ix : Index) (declares : TypeInfo → Option β) (start : String) :
    ix.Selects declares start (ix.nearest (fun t => (declares t).map (t, ·)) start) := by
  have hruns := runs_nearest ix (fun t => (declares t).map (t, ·)) start
  have hanswers := hruns.answers (Progress.init ix _ start)
  generalize ix.nearest (fun t => (declares t).map (t, ·)) start = choice at hruns hanswers
  have hsome : ∀ t b, choice = some (t, b) → ix.IsNearest declares start t b := by
    rintro t b rfl
    obtain ⟨u, n, before, after, heq, hget, hu, hbefore, hlower⟩ := hanswers
    obtain ⟨c, hc, hpair⟩ := Option.map_eq_some_iff.mp hu
    cases hpair
    exact ⟨n, before, after, heq, hget, hc, fun p hp => lacks_map.mp (hbefore p hp),
      fun k hk p hp => lacks_map.mp (hlower k hk p hp)⟩
  refine ⟨hruns, ⟨?_, fun hlacks => ?_⟩, hsome⟩
  · rintro rfl p hp
    exact lacks_map.mp (hanswers p hp)
  · cases choice with
    | none => rfl
    | some c =>
        have hnearest := hsome c.1 c.2 rfl
        have habove := hnearest.above
        obtain ⟨-, -, -, -, hget, hc, -⟩ := hnearest
        rw [hlacks _ habove _ hget] at hc
        cases hc

/-- What is said of answers can be said when the search is over. -/
theorem search_map (ix : Index) (hit : TypeInfo → Option α) (say : α → β) (fuel : Nat)
    (queue visited : List String) :
    ix.search (fun t => (hit t).map say) fuel queue visited =
      (ix.search hit fuel queue visited).map say := by
  induction fuel generalizing queue visited with
  | zero => rfl
  | succ fuel ih =>
      cases queue with
      | nil => rfl
      | cons q queue =>
          rw [search, search]
          split
          · exact ih ..
          · split
            · exact ih ..
            · rename_i t _
              cases ha : hit t with
              | none => exact ih ..
              | some a => rfl

/-! ### Methods and fields -/

/-- The type of a field is resolved when the field has been chosen. -/
theorem findField?_eq (ix : Index) (q name : String) :
    ix.findField? q name =
      (ix.nearest (fun t => (t.fields.find? (·.name == name)).map (t, ·)) q).bind fun (t, f) =>
        ix.resolveType? { file := t.file, chain := ix.chain t.qualified } f.type := by
  have hsaid := ix.search_map (fun t => (t.fields.find? (·.name == name)).map (t, ·))
    (fun (t, f) => ix.resolveType? (ix.scopeOf t) f.type) ix.searchBound [q] []
  simp only [Option.map_map, Function.comp_def] at hsaid
  rw [findField?, nearest, nearest, hsaid]
  cases ix.search (fun t => (t.fields.find? (·.name == name)).map (t, ·)) ix.searchBound [q] [] with
  | none => rfl
  | some choice => simp only [Option.map_some, Option.join_some, Option.bind_some, scopeOf]

/-- The supertypes of an entry, in its own file and inside its own chain. -/
theorem supertypeNames_of_get {t : TypeInfo} (hget : ix.get? q = some t) :
    ix.supertypeNames q = (t.superclass.toList ++ t.interfaces).filterMap fun written =>
      (ix.resolveType? { file := t.file, chain := ix.chain q } written).map (·.erasure) := by
  obtain ⟨-, rfl⟩ := mem_of_get hget
  have hsuperclass : (t.superclass.bind (ix.resolveType? (ix.scopeOf t))).toList =
      t.superclass.toList.filterMap (ix.resolveType? (ix.scopeOf t)) := by
    cases t.superclass with
    | none => rfl
    | some written => cases h : ix.resolveType? (ix.scopeOf t) written <;> simp [h]
  simp only [supertypeNames, supertypes, hget]
  rw [hsuperclass, ← List.filterMap_append, List.map_filterMap]
  rfl

/-- Members of a name are looked up above a type: methods and fields are chosen alike, and the type
of a field is resolved where the field is declared. -/
structure FindsNearest (files : List FileSyntax) (ix : Index) (q name : String) : Prop where
  method : ix.Selects (fun t => t.methods.find? (·.name == name)) q (ix.findMethod? q name)
  field : ∃ choice, ix.Selects (fun t => t.fields.find? (·.name == name)) q choice ∧
    ix.findField? q name = choice.bind fun (t, f) =>
      ix.resolveType? { file := t.file, chain := ix.chain t.qualified } f.type
  /-- The supertypes of a type are what its superclass and then its interfaces mean, in its file and
  inside its chain, without type arguments and brackets. -/
  supertypes : ∀ p t, ix.get? p = some t →
    ix.supertypeNames p = (t.superclass.toList ++ t.interfaces).filterMap fun written =>
      (ix.resolveType? { file := t.file, chain := ix.chain p } written).map (·.erasure)
  /-- A name that the index does not know has no supertypes. -/
  unknown : ∀ p, ix.get? p = none → ix.supertypeNames p = []
  /-- The chain of a type is the whole way outwards. -/
  chain : ∀ p, ix.IsChain p (ix.chain p)
  /-- What is known of a type is what a declaration in one of the files says, and constructors are
  not among its methods. -/
  entry : ∀ p t, ix.get? p = some t → ∃ i f outer s, files[i]? = some f ∧ f.Holds outer p s ∧
    t.Describes i outer p s ∧
    ∀ m, (t.methods.find? (·.name == m)).isSome ↔
      ∃ h body, .method h body ∈ s.members ∧ h.isConstructor = false ∧ h.name = m

/-- **Members are looked up at the nearest declaration**, in the index of any files, for any type
name and any member name. -/
theorem find_nearest (files : List FileSyntax) (q name : String) :
    FindsNearest files (build files) q name where
  method := selects_nearest _ _ _
  field := ⟨_, selects_nearest _ _ _, findField?_eq _ _ _⟩
  supertypes _ _ := supertypeNames_of_get
  unknown p hget := by simp [supertypeNames, Index.supertypes, hget]
  chain := isChain_chain files
  entry := by
    intro p t hget
    obtain ⟨i, f, outer, s, hf, hs, rfl⟩ := exists_holds_of_get? hget
    exact ⟨i, f, outer, s, hf, hs, describes_infoOf i outer p s,
      find?_methods_isSome i outer p s⟩

end Variability.Project.Index
