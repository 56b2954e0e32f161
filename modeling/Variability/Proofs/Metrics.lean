import Mathlib.Algebra.BigOperators.Ring.List
import Variability.Proofs.Analysis

/-!
# Metrics agree with each other

The metrics of a class are counted apart: names that methods share by grouping the names, methods
and constructors by labels, and the totals by sums over all classes. All of them count neighbours,
each once, whatever edges lead to it. So a metric is the size of a set of nodes or of names
(`Graph.MetricMeaning`). Of the names that methods share, each stands for at least two methods, and
no method is counted under two names. This orders the metrics of every class, and hence the totals.

## Main results

* `Variation.measured_detected`: the metrics that detection leaves, by the names and labels of the
  neighbours.
* `Graph.Measured.meaning`: the sets that they count.
* `Graph.Measured.consistent`: how the metrics of a class are ordered.
* `Graph.consistent_statistics`: how the totals are ordered.
* `Graph.Addressable.sumsFit`: sums fit where the metrics count edges.
* `Variation.counted_detected`: detection keeps metrics that count edges.
* `Variation.detect_consistent`: detection on any store leaves consistent metrics and totals.
-/

namespace Variability

open Session

/-! ### What detection leaves -/

namespace Graph

variable {g : Graph} {n : NodeId}

/-- A class has the metrics that its neighbours give. -/
structure Measured (g : Graph) (n : NodeId) : Prop where
  methodPoints : (g.entity n).int? .methodPoints =
    some (.ofNat (Metric.overloads (NameCount.tally (g.memberNames n .method))).length)
  methodVariants : (g.entity n).int? .methodVariants =
    some (.ofNat (Metric.overloads (NameCount.tally (g.memberNames n .method))).sum)
  constructorPoints : (g.entity n).int? .constructorPoints =
    some (.ofNat (if 1 < g.memberCount n [.constructor] then 1 else 0))
  constructorVariants : (g.entity n).int? .constructorVariants =
    some (.ofNat (if 1 < g.memberCount n [.constructor] then g.memberCount n [.constructor] else 0))
  publicMethods : (g.entity n).int? .publicMethods =
    some (.ofNat (if (g.entity n).has .exposed then g.memberCount n [.method, .exposed] else 0))
  allMethods : (g.entity n).int? .allMethods = some (.ofNat (g.memberCount n [.method]))

end Graph

/-- **Detection measures classes.** The metrics are those of the graph that it leaves. -/
theorem Variation.measured_detected (g : Graph) {n : NodeId}
    (hn : ((Rule.applyAll rules g).entity n).has .classType = true) :
    (Rule.applyAll rules g).Measured n := by
  have H := agree_detected g
  rw [H.has (l := .classType) rfl] at hn
  have hnames := H.memberNames (l := .method) rfl n
  have hcount : ∀ ls : List Label, (∀ l ∈ ls, l.isFinding = false) →
      (Rule.applyAll rules g).memberCount n ls = g.memberCount n ls :=
    fun ls hls => H.memberCount hls n
  constructor
  case methodPoints =>
    rw [hnames]
    exact int?_detected (k := 0) rfl Rule.reads_methodPoints hn
  case methodVariants =>
    rw [hnames, List.sum_eq_foldl]
    exact int?_detected (k := 1) rfl Rule.reads_methodVariants hn
  case constructorPoints =>
    rw [hcount _ (by decide)]
    exact int?_detected (k := 2) rfl Rule.reads_constructorPoints hn
  case constructorVariants =>
    rw [hcount _ (by decide)]
    exact int?_detected (k := 3) rfl Rule.reads_constructorVariants hn
  case publicMethods =>
    rw [hcount _ (by decide), H.has (l := .exposed) rfl]
    exact int?_detected (k := 8) rfl (Rule.reads_publicMembers .publicMethods .method) hn
  case allMethods =>
    rw [hcount _ (by decide)]
    exact int?_detected (k := 11) rfl Rule.reads_allMethods hn

/-! ### What the metrics count -/

namespace Graph

variable {g : Graph} {n : NodeId}

/-- `m` is a method of `n` and shares its name with another method of `n`. -/
def Overloaded (g : Graph) (n m : NodeId) : Prop :=
  g.Member .method n m ∧
    ∃ m', m' ≠ m ∧ g.Member .method n m' ∧ (g.entity m').name = (g.entity m).name

theorem nodup_members (g : Graph) (n : NodeId) (l : Label) :
    ((g.targets [] n).filter fun m => (g.entity m).has l).Nodup :=
  (nodup_targets g [] n).filter _

/-- Counting names is counting neighbours by their names. -/
theorem countP_memberNames (g : Graph) (n : NodeId) (l : Label) (p : String → Bool) :
    (g.memberNames n l).countP p =
      ((g.targets [] n).filter fun m => (g.entity m).has l).countP fun m => p (g.entity m).name :=
  List.countP_map

/-- The neighbours with some labels are counted once each. -/
theorem memberCount_eq_ncard (g : Graph) (n : NodeId) (ls : List Label) :
    g.memberCount n ls =
      {m | (∃ r, g.Step r n m) ∧ ∀ l ∈ ls, (g.entity m).has l = true}.ncard := by
  rw [memberCount, List.countP_eq_length_filter]
  refine (ncard_eq_length ((nodup_targets g [] n).filter _) fun m => ?_).symm
  simp [mem_targets_nil]

theorem memberCount_singleton (g : Graph) (n : NodeId) (l : Label) :
    g.memberCount n [l] = {m | g.Member l n m}.ncard := by
  simp [memberCount_eq_ncard, Member]

/-- A name of a method occurs more than once if the method is overloaded. -/
theorem one_lt_count_memberNames {m : NodeId} (hm : g.Member .method n m) :
    1 < (g.memberNames n .method).count (g.entity m).name ↔ g.Overloaded n m := by
  rw [List.count_eq_countP, countP_memberNames,
    one_lt_countP_iff (nodup_members g n .method)]
  simp only [List.mem_filter, mem_targets_nil, beq_iff_eq]
  constructor
  · rintro ⟨a, b, hab, ⟨ha, haname⟩, hb, hbname⟩
    by_cases ham : a = m
    · exact ⟨hm, b, fun hbm => hab (ham.trans hbm.symm), hb, hbname⟩
    · exact ⟨hm, a, ham, ha, haname⟩
  · rintro ⟨-, m', hne, hm', hname⟩
    exact ⟨m', m, hne, ⟨hm', hname⟩, hm, rfl⟩

/-- The overloads of a class add up to its overloaded methods. -/
theorem sum_overloads_eq_ncard (g : Graph) (n : NodeId) :
    (Metric.overloads (NameCount.tally (g.memberNames n .method))).sum =
      {m | g.Overloaded n m}.ncard := by
  rw [Metric.sum_overloads_tally, countP_memberNames, List.countP_eq_length_filter]
  refine (ncard_eq_length ((nodup_members g n .method).filter _) fun m => ?_).symm
  rw [List.mem_filter, List.mem_filter, mem_targets_nil]
  constructor
  · exact fun hm => ⟨hm.1, by simpa using (one_lt_count_memberNames hm.1).mpr hm⟩
  · rintro ⟨hm, hmany⟩
    exact (one_lt_count_memberNames hm).mp (by simpa using hmany)

/-- The overloads of a class are as many as the names of its overloaded methods. -/
theorem length_overloads_eq_ncard (g : Graph) (n : NodeId) :
    (Metric.overloads (NameCount.tally (g.memberNames n .method))).length =
      ((fun m => (g.entity m).name) '' {m | g.Overloaded n m}).ncard := by
  rw [Metric.length_overloads_tally]
  refine (ncard_eq_length ((List.nodup_dedup _).filter _) fun name => ?_).symm
  rw [List.mem_filter, List.mem_dedup, decide_eq_true_iff]
  constructor
  · rintro ⟨m, hm, rfl⟩
    have hmany := (one_lt_count_memberNames hm.1).mpr hm
    exact ⟨List.count_pos_iff.mp (Nat.zero_lt_of_lt hmany), hmany⟩
  · rintro ⟨hname, hmany⟩
    obtain ⟨m, hm, rfl⟩ := List.mem_map.mp hname
    rw [List.mem_filter, mem_targets_nil] at hm
    exact ⟨m, (one_lt_count_memberNames hm).mp hmany, rfl⟩

/-- The sets that the metrics of a class count. -/
structure MetricMeaning (g : Graph) (n : NodeId) : Prop where
  /-- Names that several methods share. -/
  methodPoints : (g.entity n).int? .methodPoints =
    some (.ofNat ((fun m => (g.entity m).name) '' {m | g.Overloaded n m}).ncard)
  /-- Methods that share their name. -/
  methodVariants : (g.entity n).int? .methodVariants =
    some (.ofNat {m | g.Overloaded n m}.ncard)
  allMethods : (g.entity n).int? .allMethods = some (.ofNat {m | g.Member .method n m}.ncard)
  /-- Public methods of public classes. -/
  publicMethods : (g.entity n).int? .publicMethods =
    some (.ofNat (if (g.entity n).has .exposed then
      {m | g.Member .method n m ∧ (g.entity m).has .exposed = true}.ncard else 0))
  /-- Constructors, if there are several. -/
  constructorPoints : (g.entity n).int? .constructorPoints =
    some (.ofNat (if 1 < {m | g.Member .constructor n m}.ncard then 1 else 0))
  constructorVariants : (g.entity n).int? .constructorVariants =
    some (.ofNat (if 1 < {m | g.Member .constructor n m}.ncard then
      {m | g.Member .constructor n m}.ncard else 0))

/-- **What the metrics of a class count.** -/
theorem Measured.meaning (h : g.Measured n) : g.MetricMeaning n where
  methodPoints := length_overloads_eq_ncard g n ▸ h.methodPoints
  methodVariants := sum_overloads_eq_ncard g n ▸ h.methodVariants
  allMethods := memberCount_singleton g n .method ▸ h.allMethods
  publicMethods := by
    have hpublic : g.memberCount n [.method, .exposed] =
        {m | g.Member .method n m ∧ (g.entity m).has .exposed = true}.ncard := by
      simp [memberCount_eq_ncard, Member, and_assoc]
    exact hpublic ▸ h.publicMethods
  constructorPoints := memberCount_singleton g n .constructor ▸ h.constructorPoints
  constructorVariants := memberCount_singleton g n .constructor ▸ h.constructorVariants

end Graph

/-! ### How the metrics are ordered -/

/-- The metrics of a class fit each other. -/
structure Entity.Consistent (e : Entity) : Prop where
  two_mul_methodPoints_le :
    2 * (e.count .methodPoints).toInt ≤ (e.count .methodVariants).toInt
  methodVariants_le : (e.count .methodVariants).toInt ≤ (e.count .allMethods).toInt
  methodVariants_eq_zero_iff : e.count .methodVariants = 0 ↔ e.count .methodPoints = 0
  constructorPoints : e.count .constructorPoints = 0 ∨ e.count .constructorPoints = 1
  constructorVariants_eq_zero_iff :
    e.count .constructorVariants = 0 ↔ e.count .constructorPoints = 0
  two_le_constructorVariants :
    e.count .constructorVariants ≠ 0 → 2 ≤ (e.count .constructorVariants).toInt
  publicMethods_le : (e.count .publicMethods).toInt ≤ (e.count .allMethods).toInt

/-- Fewer neighbours have more labels. -/
theorem Graph.memberCount_cons_le (g : Graph) (n : NodeId) (l : Label) (ls : List Label) :
    g.memberCount n (l :: ls) ≤ g.memberCount n [l] :=
  List.countP_mono_left fun m _ hm => by
    rw [List.all_cons, Bool.and_eq_true] at hm
    simpa using hm.1

/-- The metrics that every class has. -/
def Property.classMetrics : List Property :=
  [methodPoints, methodVariants, constructorPoints, constructorVariants, publicMethods, allMethods]

namespace Graph

variable {g : Graph} {n : NodeId}

/-- Every metric of a class counts edges. -/
theorem Measured.countsEdges (hsmall : g.Addressable) (h : g.Measured n) :
    ∀ p ∈ Property.classMetrics, g.CountsEdges p n := by
  have hmembers := g.memberCount_le n
  simp only [Property.classMetrics, List.forall_mem_cons, List.not_mem_nil, false_implies,
    implies_true, and_true]
  exact ⟨hsmall.countsEdges h.methodPoints (g.length_overloads_le n .method),
    hsmall.countsEdges h.methodVariants ((g.sum_overloads_le n .method).trans (hmembers _)),
    hsmall.countsEdges h.constructorPoints (g.memberCount_several_le n _),
    hsmall.countsEdges h.constructorVariants (g.memberCount_ite_le n _ _),
    hsmall.countsEdges h.publicMethods (g.memberCount_ite_le n _ _),
    hsmall.countsEdges h.allMethods (hmembers _)⟩

/-- **The metrics of a class fit each other.** -/
theorem Measured.consistent (hsmall : g.Addressable) (h : g.Measured n) :
    (g.entity n).Consistent := by
  have hmembers := g.memberCount_le n
  have hpoints := hsmall.toInt_count h.methodPoints (g.length_overloads_le n .method)
  have hvariants := hsmall.toInt_count h.methodVariants
    ((g.sum_overloads_le n .method).trans (hmembers _))
  have hall := hsmall.toInt_count h.allMethods (hmembers _)
  have hconstructors := hsmall.toInt_count h.constructorPoints (g.memberCount_several_le n _)
  have hconstructorVariants :=
    hsmall.toInt_count h.constructorVariants (g.memberCount_ite_le n _ _)
  have hpublic := hsmall.toInt_count h.publicMethods (g.memberCount_ite_le n _ _)
  have hle := Metric.two_mul_length_overloads_le (NameCount.tally (g.memberNames n .method))
  have hsum := g.sum_overloads_le n .method
  have hzero : ∀ p, (g.entity n).count p = 0 ↔ ((g.entity n).count p).toInt = 0 :=
    fun p => Int64.toInt_inj.symm
  constructor
  case two_mul_methodPoints_le => omega
  case methodVariants_le => omega
  case methodVariants_eq_zero_iff =>
    have hnone : (Metric.overloads (NameCount.tally (g.memberNames n .method))).length = 0 →
        (Metric.overloads (NameCount.tally (g.memberNames n .method))).sum = 0 := by
      intro hempty
      rw [List.length_eq_zero_iff.mp hempty, List.sum_nil]
    rw [hzero, hzero]
    omega
  case constructorPoints =>
    have hone : (g.entity n).count .constructorPoints = 1 ↔
        ((g.entity n).count .constructorPoints).toInt = 1 := Int64.toInt_inj.symm
    rw [hzero, hone]
    split at hconstructors
    · exact .inr hconstructors
    · exact .inl hconstructors
  case constructorVariants_eq_zero_iff =>
    rw [hzero, hzero]
    by_cases hmany : 1 < g.memberCount n [.constructor]
    · rw [if_pos hmany] at hconstructors hconstructorVariants
      omega
    · rw [if_neg hmany] at hconstructors hconstructorVariants
      omega
  case two_le_constructorVariants =>
    rw [Ne, hzero]
    split at hconstructorVariants
    · omega
    · exact fun hne => absurd hconstructorVariants hne
  case publicMethods_le =>
    have hfewer := g.memberCount_cons_le n .method [.exposed]
    split at hpublic
    · omega
    · omega

end Graph

/-! ### Totals -/

/-- The totals of a graph fit each other. -/
structure Statistics.Consistent (s : Statistics) (g : Graph) : Prop where
  two_mul_methodsPoints_le : 2 * s.methodsPoints.toInt ≤ s.methodsVariants.toInt
  methodsVariants_le : s.methodsVariants.toInt ≤ s.allMethods.toInt
  two_mul_constructorsPoints_le : 2 * s.constructorsPoints.toInt ≤ s.constructorsVariants.toInt
  publicMethods_le : s.publicMethods.toInt ≤ s.allMethods.toInt
  points : s.points.toInt =
    s.classLevelPoints.toInt + s.methodsPoints.toInt + s.constructorsPoints.toInt
  variants : s.variants.toInt =
    s.classLevelVariants.toInt + s.methodsVariants.toInt + s.constructorsVariants.toInt
  /-- Every variation point and every variant counts once on the level of types. -/
  classLevel : s.classLevelPoints.toInt + s.classLevelVariants.toInt =
    {n | (g.entity n).has .variationPoint = true ∨ (g.entity n).has .variant = true}.ncard

namespace Graph

variable {g : Graph}

/-- Nodes that meet one of two conditions meet the first, or the second and not the first. -/
theorem length_idsWhere_or (g : Graph) (c d : Entity → Bool) :
    (g.idsWhere fun e => c e || d e).length =
      (g.idsWhere c).length + (g.idsWhere fun e => d e && !c e).length := by
  simp only [idsWhere, ← List.countP_eq_length_filter]
  rw [List.countP_eq_countP_filter_add _ _ fun id => c (g.entity id), List.countP_filter,
    List.countP_filter]
  congr 1
  · exact List.countP_congr fun id _ => by cases c (g.entity id) <;> simp
  · exact List.countP_congr fun id _ => by cases c (g.entity id) <;> simp

/-- An order of metrics on every class is one of their totals. -/
theorem Addressable.total_le_total (hsmall : g.Addressable) {c : Entity → Bool} {p q : Property}
    (hp : ∀ n, c (g.entity n) = true → g.CountsEdges p n)
    (hq : ∀ n, c (g.entity n) = true → g.CountsEdges q n) {a : Int}
    (h : ∀ n, c (g.entity n) = true →
      a * ((g.entity n).count p).toInt ≤ ((g.entity n).count q).toInt) :
    a * (Statistics.total ((g.idsWhere c).map g.nodeAt) p).toInt ≤
      (Statistics.total ((g.idsWhere c).map g.nodeAt) q).toInt := by
  rw [(hsmall.addsUp_total hp).2, (hsmall.addsUp_total hq).2, ← List.sum_map_mul_left]
  exact List.sum_le_sum fun n hn => h n (mem_idsWhere.mp hn).2

/-- Two totals and a number of nodes add up. -/
theorem Addressable.toInt_levels (hsmall : g.Addressable) {c d : Entity → Bool} {p q : Property}
    (hp : ∀ n, c (g.entity n) = true → g.CountsEdges p n)
    (hq : ∀ n, c (g.entity n) = true → g.CountsEdges q n) :
    (.ofNat (g.idsWhere d).length + (Statistics.total ((g.idsWhere c).map g.nodeAt) p +
        Statistics.total ((g.idsWhere c).map g.nodeAt) q)).toInt =
      (Int64.ofNat (g.idsWhere d).length).toInt +
        (Statistics.total ((g.idsWhere c).map g.nodeAt) p).toInt +
        (Statistics.total ((g.idsWhere c).map g.nodeAt) q).toInt := by
  obtain ⟨hcount, hcountLe⟩ := hsmall.toInt_length_idsWhere d
  have hpBounds := hsmall.total_bounds hp
  have hqBounds := hsmall.total_bounds hq
  have hinner := toInt_add_of_lt (n := Statistics.total ((g.idsWhere c).map g.nodeAt) p)
    (m := Statistics.total ((g.idsWhere c).map g.nodeAt) q) (by omega) (by omega)
  rw [toInt_add_of_lt (by omega) (by omega), hinner]
  omega

/-- **The totals fit each other** where all classes are measured. -/
theorem consistent_statistics (hsmall : g.Addressable)
    (h : ∀ n, (g.entity n).has .classType = true → g.Measured n) :
    g.statistics.Consistent g := by
  have hclass := fun n hn => (h n hn).consistent hsmall
  have hcounts : ∀ p ∈ Property.classMetrics, ∀ n, (g.entity n).has .classType = true →
      g.CountsEdges p n := fun p hp n hn => (h n hn).countsEdges hsmall p hp
  constructor
  case two_mul_methodsPoints_le =>
    exact hsmall.total_le_total (hcounts .methodPoints (by decide))
      (hcounts .methodVariants (by decide)) fun n hn => (hclass n hn).two_mul_methodPoints_le
  case methodsVariants_le =>
    have hle := hsmall.total_le_total (c := (·.has .classType)) (a := 1)
      (hcounts .methodVariants (by decide)) (hcounts .allMethods (by decide)) fun n hn =>
        (one_mul _).trans_le (hclass n hn).methodVariants_le
    rwa [one_mul] at hle
  case two_mul_constructorsPoints_le =>
    refine hsmall.total_le_total (hcounts .constructorPoints (by decide))
      (hcounts .constructorVariants (by decide)) fun n hn => ?_
    obtain ⟨-, -, -, hpoints, hzero, htwo, -⟩ := hclass n hn
    rcases hpoints with hpoints | hpoints
    · rw [hpoints, hzero.mpr hpoints]
      decide
    · have hvariants := htwo fun heq => absurd (hzero.mp heq) (hpoints ▸ by decide)
      rw [hpoints]
      exact hvariants
  case publicMethods_le =>
    have hle := hsmall.total_le_total (c := (·.has .classType)) (a := 1)
      (hcounts .publicMethods (by decide)) (hcounts .allMethods (by decide)) fun n hn =>
        (one_mul _).trans_le (hclass n hn).publicMethods_le
    rwa [one_mul] at hle
  case points =>
    exact hsmall.toInt_levels (hcounts .methodPoints (by decide))
      (hcounts .constructorPoints (by decide))
  case variants =>
    exact hsmall.toInt_levels (hcounts .methodVariants (by decide))
      (hcounts .constructorVariants (by decide))
  case classLevel =>
    have hcard : {n | (g.entity n).has .variationPoint = true ∨
        (g.entity n).has .variant = true}.ncard =
        (g.idsWhere fun e => e.has .variationPoint || e.has .variant).length := by
      refine ncard_eq_length (List.nodup_range.filter _) fun n => ?_
      rw [mem_idsWhere, Bool.or_eq_true]
      exact (and_iff_right_of_imp fun hn => hn.elim lt_size_of_has lt_size_of_has).symm
    have hpoints := (hsmall.toInt_length_idsWhere (·.has .variationPoint)).1
    have hvariants := (hsmall.toInt_length_idsWhere
      fun e => e.has .variant && !e.has .variationPoint).1
    rw [hcard, length_idsWhere_or, Nat.cast_add, ← hpoints, ← hvariants]
    rfl

end Graph

/-! ### Sums that fit -/

namespace Graph

variable {g : Graph}

/-- Two totals of counts of edges add up, and they do so with a number of nodes. -/
theorem Addressable.addsUp_levels (hsmall : g.Addressable) {c d : Entity → Bool}
    {p q : Property} (hp : ∀ n, g.CountsEdges p n) (hq : ∀ n, g.CountsEdges q n) :
    AddsUp (Statistics.total ((g.idsWhere c).map g.nodeAt) p)
        [Statistics.total ((g.idsWhere c).map g.nodeAt) q] ∧
      AddsUp (.ofNat (g.idsWhere d).length)
        [Statistics.total ((g.idsWhere c).map g.nodeAt) p +
          Statistics.total ((g.idsWhere c).map g.nodeAt) q] := by
  obtain ⟨hcount, hcountLe⟩ := hsmall.toInt_length_idsWhere d
  have hpBounds := hsmall.total_bounds (c := c) fun n _ => hp n
  have hqBounds := hsmall.total_bounds (c := c) fun n _ => hq n
  have hadd := AddsUp.pair (n := Statistics.total ((g.idsWhere c).map g.nodeAt) p)
    (m := Statistics.total ((g.idsWhere c).map g.nodeAt) q) (by omega) (by omega)
  have hsum := hadd.1
  exact ⟨hadd, .pair (by omega) (by omega)⟩

/-- **Sums fit where the metrics count edges.** -/
theorem Addressable.sumsFit (hsmall : g.Addressable) (h : g.Counted) : g.SumsFit := by
  have hpoints := hsmall.addsUp_levels (c := (·.has .classType)) (d := (·.has .variationPoint))
    (h .methodPoints (by decide)) (h .constructorPoints (by decide))
  have hvariants := hsmall.addsUp_levels (c := (·.has .classType))
    (d := fun e => e.has .variant && !e.has .variationPoint)
    (h .methodVariants (by decide)) (h .constructorVariants (by decide))
  refine ⟨fun n methods constructors hmethods hconstructors => ?_,
    fun p hp => (hsmall.addsUp_total fun n _ => h p hp n).1, hpoints.1, hpoints.2, hvariants.1,
    hvariants.2⟩
  have hedges := hsmall.length_edgesFrom_le n
  have hmethodCount := h .methodVariants (by decide) n
  have hconstructorCount := h .constructorVariants (by decide) n
  rw [CountsEdges, Entity.count, hmethods, Option.getD_some] at hmethodCount
  rw [CountsEdges, Entity.count, hconstructors, Option.getD_some] at hconstructorCount
  exact .pair (by omega) (by omega)

end Graph

namespace Variation

variable {g : Graph}

/-- A metric counts edges after its rule, also on the nodes that the rule leaves out. -/
theorem countsEdges_detected (hsmall : g.Addressable) {k : Nat} {p : Property}
    {selects : Graph → List NodeId} {count : Graph → NodeId → Nat}
    (hk : rules[k]? = some (.put p selects fun g id => .ofCount (count g id)))
    (hreads : (Rule.put p selects fun g id => .ofCount (count g id)).Reads Trait.IsGiven)
    {n : NodeId} (hbefore : g.CountsEdges p n) (hcount : count g n ≤ (g.edgesFrom n).length) :
    (Rule.applyAll rules g).CountsEdges p n := by
  have hedges : (Rule.applyAll rules g).edgesFrom n = g.edgesFrom n := by
    rw [Graph.edgesFrom_eq, Graph.edgesFrom_eq, (agree_detected g).edges]
  have hproperty :=
    Rule.property?_applyAll_metric nodup_traits not_isGiven_of_mem_rules hk hreads g n
  rw [Graph.CountsEdges, hedges, Entity.count, Entity.int?, hproperty]
  split
  · have htoInt := hsmall.toInt_ofNat hcount
    show 0 ≤ (Int64.ofNat (count g n)).toInt ∧ (Int64.ofNat (count g n)).toInt ≤ _
    omega
  · exact hbefore

/-- **The metrics count edges** after detection, if they did so before. -/
theorem counted_detected (hsmall : g.Addressable) (hg : g.Counted) :
    (Rule.applyAll rules g).Counted := by
  simp only [Graph.Counted, Statistics.summed, List.forall_mem_cons, List.not_mem_nil,
    false_implies, implies_true, and_true] at hg ⊢
  obtain ⟨hpoints, hconstructorPoints, hvariants, hconstructorVariants, hpublic, hall,
    hpublicConstructors, hcompositions⟩ := hg
  have hoverloads : ∀ n, (Metric.overloads (NameCount.tally (g.memberNames n .method))).foldl
      (· + ·) 0 ≤ (g.edgesFrom n).length := by
    intro n
    rw [← List.sum_eq_foldl]
    exact (g.sum_overloads_le n .method).trans (g.memberCount_le n _)
  refine ⟨fun n => ?_, fun n => ?_, fun n => ?_, fun n => ?_, fun n => ?_, fun n => ?_,
    fun n => ?_, fun n => ?_⟩
  · exact countsEdges_detected (k := 0) hsmall rfl Rule.reads_methodPoints (hpoints n)
      (g.length_overloads_le n .method)
  · exact countsEdges_detected (k := 2) hsmall rfl Rule.reads_constructorPoints
      (hconstructorPoints n) (g.memberCount_several_le n _)
  · exact countsEdges_detected (k := 1) hsmall rfl Rule.reads_methodVariants (hvariants n)
      (hoverloads n)
  · exact countsEdges_detected (k := 3) hsmall rfl Rule.reads_constructorVariants
      (hconstructorVariants n) (g.memberCount_ite_le n _ _)
  · exact countsEdges_detected (k := 8) hsmall rfl
      (Rule.reads_publicMembers .publicMethods .method) (hpublic n) (g.memberCount_ite_le n _ _)
  · exact countsEdges_detected (k := 11) hsmall rfl Rule.reads_allMethods (hall n)
      (g.memberCount_le n _)
  · exact countsEdges_detected (k := 9) hsmall rfl
      (Rule.reads_publicMembers .publicConstructors .constructor) (hpublicConstructors n)
      (g.memberCount_ite_le n _ _)
  · exact countsEdges_detected (k := 10) hsmall rfl Rule.reads_compositions (hcompositions n)
      (g.length_targets_le [.composing] n)

end Variation

/-- **Metrics and totals are consistent.** Detection succeeds on every store, whatever has been
called on it, also where earlier detections have left labels and metrics. It keeps all that was
given, and the metrics of each class count what they are meant to count. With as many nodes and
edges as a store can number, the metrics of each class fit each other, and so do the totals. Where,
moreover, no metric that was set before is more than a count of edges, no sum wraps around. -/
theorem Variation.detect_consistent (policy : RetryPolicy) (calls : List Store.Write) :
    ∃ d s, detect policy (.after calls) = (.ok (), { graph := d }) ∧
      Statistics.collect policy { graph := d } = (.ok s, { graph := d }) ∧
      (Store.after calls).graph.Agree Trait.IsGiven d ∧
      (∀ n, (d.entity n).has .classType = true → d.MetricMeaning n) ∧
      (d.Addressable →
        (∀ n, (d.entity n).has .classType = true → (d.entity n).Consistent) ∧
        s.Consistent d ∧ ((Store.after calls).graph.Counted → d.SumsFit)) := by
  rw [Store.after_eq]
  have hdetect := applies_detect (Store.closed_after calls) policy
  have hagree := agree_detected (Store.after calls).graph
  have hmeasured : ∀ n, _ → Graph.Measured _ n := fun n =>
    measured_detected (Store.after calls).graph (n := n)
  refine ⟨_, _, hdetect, Statistics.yields_collect _ policy, hagree,
    fun n hn => (hmeasured n hn).meaning, fun hsmall => ⟨?_, ?_, fun hcounted => ?_⟩⟩
  · exact fun n hn => (hmeasured n hn).consistent hsmall
  · exact Graph.consistent_statistics hsmall hmeasured
  · exact hsmall.sumsFit (counted_detected (hagree.addressable_iff.mp hsmall) hcounted)

end Variability
