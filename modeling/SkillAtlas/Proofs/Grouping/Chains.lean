import SkillAtlas.Proofs.Graph.Acyclic
import SkillAtlas.Proofs.Grouping.Search

/-!
# Chains in closed form

The search for call chains goes from one start to the next, passes over starts that it has visited, and
claims names on its way. Its result can be told without that: the chain of a start is all that the start
reaches and no earlier start reaches, and a chain becomes a group of those of its names that were free
before the search, if they are two at least. For chains share no name, and so no group takes a name away
from a later chain.
-/

namespace SkillAtlas

open AnalyzedUnit (names named?)

/-- The first of some names that have the highest count. -/
def FirstMost (count : String → Nat) (ns : List String) (b : String) : Prop :=
  ∃ before after, ns = before ++ b :: after ∧ (∀ n ∈ before, count n < count b) ∧
    ∀ n ∈ after, count n ≤ count b

/-- Of the best name so far and the next the one with the higher count, of two alike the earlier. -/
def preferred (count : String → Nat) (best : Option String) (n : String) : Option String :=
  match best with
  | some b => if count b < count n then some n else some b
  | none => some n

section FirstMost

variable {count : String → Nat} {ns : List String} {b : String}

lemma FirstMost.le (h : FirstMost count ns b) : ∀ n ∈ ns, count n ≤ count b := by
  obtain ⟨before, after, rfl, hbefore, hafter⟩ := h
  intro n hn
  rcases List.mem_append.mp hn with hn | hn
  · exact (hbefore n hn).le
  · rcases List.mem_cons.mp hn with rfl | hn
    · exact le_rfl
    · exact hafter n hn

lemma FirstMost.concat (h : FirstMost count ns b) (n : String) :
    ∃ c, preferred count (some b) n = some c ∧ FirstMost count (ns ++ [n]) c := by
  unfold preferred
  dsimp only
  split
  · rename_i hlt
    exact ⟨n, rfl, ns, [], rfl, fun m hm => lt_of_le_of_lt (h.le m hm) hlt, by simp⟩
  · rename_i hle
    obtain ⟨before, after, rfl, hbefore, hafter⟩ := h
    refine ⟨b, rfl, before, after ++ [n], by simp, hbefore, fun m hm => ?_⟩
    rcases List.mem_append.mp hm with hm | hm
    · exact hafter m hm
    · obtain rfl := List.mem_singleton.mp hm
      exact not_lt.mp hle

lemma FirstMost.foldl (h : FirstMost count ns b) (rest : List String) :
    ∃ c, rest.foldl (preferred count) (some b) = some c ∧ FirstMost count (ns ++ rest) c := by
  induction rest generalizing ns b with
  | nil => exact ⟨b, rfl, by rwa [List.append_nil]⟩
  | cons n rest ih =>
    obtain ⟨c, hc, hmost⟩ := h.concat n
    obtain ⟨d, hd, hall⟩ := ih hmost
    refine ⟨d, by rw [List.foldl_cons, hc, hd], ?_⟩
    rwa [List.append_assoc, List.singleton_append] at hall

end FirstMost

/-- A start, and the names that it gathers and no earlier start does. -/
structure Chain where
  root : String
  own : List String

namespace Chain

/-- The names of a chain that are not claimed. -/
def free (c : Chain) (claimed : List String) : List String :=
  c.own.filter fun n => !claimed.contains n

variable {c : Chain} {claimed : List String} {n : String}

lemma mem_free : n ∈ c.free claimed ↔ n ∈ c.own ∧ n ∉ claimed := by
  simp [free]

lemma free_sublist (c : Chain) (claimed : List String) : (c.free claimed).Sublist c.own :=
  List.filter_sublist

end Chain

namespace CallGraph

/-- A unit with all that it reaches by calls, the nearest first. -/
def gathered (g : CallGraph) (n : String) : List String :=
  n :: g.transitiveCalls n

/-- The chain of a start after some others. -/
def chainOf (g : CallGraph) (before : List String) (r : String) : Chain :=
  ⟨r, (g.gathered r).filter fun n => !(before.flatMap g.gathered).contains n⟩

/-- The chains of some starts in turn, after some others. -/
def chains (g : CallGraph) (before starts : List String) : List Chain :=
  starts.mapIdx fun i r => g.chainOf (before ++ starts.take i) r

/-- Where chains start: at the roots, or without roots at the first unit with the most calls, if it has
any. -/
inductive Starts (g : CallGraph) : List String → Prop where
  | roots (h : g.roots ≠ []) : Starts g g.roots
  | busiest {b : String} (h : g.roots = []) (hb : FirstMost (fun n => (g.calls n).length) g.nodes b)
      (hcalls : g.calls b ≠ []) : Starts g [b]
  | idle (h : g.roots = []) (hcalls : ∀ n ∈ g.nodes, g.calls n = []) : Starts g []

/-- A graph over some units: it was built by changes, and knows no other names. -/
structure Over (units : List AnalyzedUnit) (g : CallGraph) : Prop where
  built : ∃ changes, g = after changes
  known : g.nodes ⊆ names units

section Starts

variable {g : CallGraph} {starts : List String}

lemma busiest?_eq (g : CallGraph) :
    g.busiest? = (g.nodes.foldl (preferred fun n => (g.calls n).length) none).filter
      fun n => 0 < (g.calls n).length :=
  rfl

lemma starts_chainStarts (g : CallGraph) : g.Starts g.chainStarts := by
  unfold chainStarts
  split
  · rename_i hroots
    rw [busiest?_eq]
    cases hnodes : g.nodes with
    | nil => exact .idle hroots (by simp [hnodes])
    | cons n rest =>
      have hfirst : FirstMost (fun n => (g.calls n).length) [n] n := ⟨[], [], rfl, by simp, by simp⟩
      obtain ⟨b, hb, hmost⟩ := hfirst.foldl rest
      rw [List.singleton_append, ← hnodes] at hmost
      rw [List.foldl_cons, preferred, hb]
      by_cases hcalls : g.calls b = []
      · have hnone : ∀ m ∈ g.nodes, g.calls m = [] := fun m hm => by
          simpa [hcalls] using FirstMost.le hmost m hm
        simpa [Option.filter, hcalls] using Starts.idle hroots hnone
      · simpa [Option.filter, List.length_pos_iff, hcalls] using Starts.busiest hroots hmost hcalls
  · rename_i hroots
    exact .roots hroots

lemma Starts.subset_nodes (h : g.Starts starts) : starts ⊆ g.nodes := by
  cases h with
  | roots _ => exact List.filter_subset_self _
  | busiest _ hb _ =>
    obtain ⟨before, after, hnodes, -, -⟩ := hb
    simp [hnodes]
  | idle _ _ => exact List.nil_subset _

end Starts

section Gathered

variable {g : CallGraph} {before rest claimed now visited more : List String} {r n : String}

lemma Over.wellFormed {units : List AnalyzedUnit} (h : g.Over units) : g.WellFormed := by
  obtain ⟨changes, rfl⟩ := h.built
  exact wellFormed_after changes

lemma over_ofUnits (units : List AnalyzedUnit) : (ofUnits units).Over units := by
  refine ⟨⟨_, ofUnits_eq_after units⟩, fun n hn => ?_⟩
  rwa [(parts_ofUnits units).1, List.mem_eraseDups] at hn

lemma WellFormed.mem_gathered (h : g.WellFormed) (hr : r ∈ g.nodes) : n ∈ g.gathered r ↔ g.Reaches r n := by
  rw [gathered, List.mem_cons, h.mem_transitiveCalls hr]
  constructor
  · rintro (rfl | ⟨-, hreach⟩)
    · exact Relation.ReflTransGen.refl
    · exact hreach
  · intro hreach
    by_cases hn : n = r
    · exact Or.inl hn
    · exact Or.inr ⟨hn, hreach⟩

lemma WellFormed.gathered_subset_nodes (h : g.WellFormed) (hr : r ∈ g.nodes) : g.gathered r ⊆ g.nodes :=
  fun _ hn => h.mem_of_reaches ((h.mem_gathered hr).mp hn) hr

lemma WellFormed.gathered_subset (h : g.WellFormed) (hr : r ∈ g.nodes) (hn : n ∈ g.gathered r) :
    g.gathered n ⊆ g.gathered r := by
  intro m hm
  have hreach := (h.mem_gathered hr).mp hn
  have hmore := (h.mem_gathered (h.mem_of_reaches hreach hr)).mp hm
  exact (h.mem_gathered hr).mpr (Relation.ReflTransGen.trans hreach hmore)

lemma mem_own : n ∈ (g.chainOf before r).own ↔ n ∈ g.gathered r ∧ n ∉ before.flatMap g.gathered := by
  rw [chainOf, List.mem_filter, Bool.not_eq_true', List.contains_eq_mem, decide_eq_false_iff_not]

lemma chains_cons (g : CallGraph) (before : List String) (r : String) (rest : List String) :
    g.chains before (r :: rest) = g.chainOf before r :: g.chains (before ++ [r]) rest := by
  simp only [chains, List.mapIdx_cons, List.take_zero, List.append_nil, List.take_succ_cons,
    List.append_assoc, List.singleton_append]

lemma exists_of_mem_chains {starts : List String} {c : Chain} (hc : c ∈ g.chains before starts) :
    ∃ earlier r later, starts = earlier ++ r :: later ∧ c = g.chainOf (before ++ earlier) r := by
  obtain ⟨i, hi, rfl⟩ := List.mem_mapIdx.mp hc
  refine ⟨starts.take i, starts[i], starts.drop (i + 1), ?_, rfl⟩
  rw [← List.drop_eq_getElem_cons hi, List.take_append_drop]

lemma Over.free_subset {units : List AnalyzedUnit} {starts : List String} {c : Chain} (h : g.Over units)
    (hs : starts ⊆ g.nodes) (hc : c ∈ g.chains before starts) (claimed : List String) :
    c.free claimed ⊆ names units := by
  obtain ⟨earlier, r, later, rfl, rfl⟩ := exists_of_mem_chains hc
  have hr : r ∈ g.nodes := hs (by simp)
  exact fun n hn =>
    h.known (h.wellFormed.gathered_subset_nodes hr (mem_own.mp (Chain.mem_free.mp hn).1).1)

/-- What is known after some starts: they have visited what they gather, and of all other names those are
claimed that were claimed before the search. -/
structure Searched (g : CallGraph) (claimed before now visited : List String) : Prop where
  known : before ⊆ g.nodes
  seen : ∀ n, n ∈ visited ↔ n ∈ before.flatMap g.gathered
  fresh : ∀ n ∉ visited, n ∈ now ↔ n ∈ claimed

lemma searched_start (g : CallGraph) (claimed : List String) : g.Searched claimed [] claimed [] :=
  ⟨List.nil_subset _, fun _ => Iff.rfl, fun _ _ => Iff.rfl⟩

namespace Searched

/-- A start that was visited gathers nothing that was not. -/
lemma gathered_subset (h : g.Searched claimed before now visited) (hg : g.WellFormed) (hr : r ∈ visited) :
    g.gathered r ⊆ before.flatMap g.gathered := by
  obtain ⟨b, hb, hrb⟩ := List.mem_flatMap.mp ((h.seen r).mp hr)
  exact fun n hn => List.mem_flatMap.mpr ⟨b, hb, hg.gathered_subset (h.known hb) hrb hn⟩

lemma own_eq_nil (h : g.Searched claimed before now visited) (hg : g.WellFormed) (hr : r ∈ visited) :
    (g.chainOf before r).own = [] :=
  List.eq_nil_iff_forall_not_mem.mpr fun _ hn =>
    (mem_own.mp hn).2 (h.gathered_subset hg hr (mem_own.mp hn).1)

lemma own_eq (h : g.Searched claimed before now visited) (hr : r ∉ visited) :
    (g.chainOf before r).own = r :: (g.transitiveCalls r).filter fun n => !visited.contains n := by
  have hsame : ∀ n, (before.flatMap g.gathered).contains n = visited.contains n := fun n => by
    simp only [List.contains_eq_mem, h.seen n]
  simp only [chainOf, gathered, hsame]
  rw [List.filter_cons_of_pos (by simpa using hr)]

lemma free_eq (h : g.Searched claimed before now visited) (r : String) :
    (g.chainOf before r).free now = (g.chainOf before r).free claimed := by
  refine List.filter_congr fun n hn => ?_
  have hn : n ∉ visited := fun hv => (mem_own.mp hn).2 ((h.seen n).mp hv)
  simp only [List.contains_eq_mem, h.fresh n hn]

lemma pass (h : g.Searched claimed before now visited) (hg : g.WellFormed) (hr : r ∈ visited)
    (hk : r ∈ g.nodes) : g.Searched claimed (before ++ [r]) now visited where
  known := List.append_subset.mpr ⟨h.known, by simpa using hk⟩
  seen n := by
    rw [h.seen, List.flatMap_append, List.flatMap_singleton, List.mem_append]
    exact (or_iff_left_of_imp fun hn => h.gathered_subset hg hr hn).symm
  fresh := h.fresh

lemma next (h : g.Searched claimed before now visited) (hk : r ∈ g.nodes)
    (hm : more ⊆ (g.chainOf before r).own) :
    g.Searched claimed (before ++ [r]) (now ++ more) (visited ++ (g.chainOf before r).own) where
  known := List.append_subset.mpr ⟨h.known, by simpa using hk⟩
  seen n := by
    rw [List.mem_append, h.seen, mem_own, List.flatMap_append, List.flatMap_singleton, List.mem_append]
    tauto
  fresh n hn := by
    rw [List.mem_append, not_or] at hn
    rw [List.mem_append, h.fresh n hn.1]
    exact or_iff_left fun hmore => hn.2 (hm hmore)

end Searched

end Gathered

end CallGraph

section Named

variable {units : List AnalyzedUnit} {ns : List String} {n : String}

lemma AnalyzedUnit.exists_named? (h : n ∈ names units) : ∃ u, named? units n = some u := by
  obtain ⟨u, hu, rfl⟩ := List.mem_map.mp h
  refine Option.isSome_iff_exists.mp (List.find?_isSome.mpr ⟨u, List.mem_reverse.mpr hu, ?_⟩)
  exact beq_self_eq_true _

lemma AnalyzedUnit.names_filterMap_named_eq (h : ns ⊆ names units) :
    names (ns.filterMap (named? units)) = ns := by
  induction ns with
  | nil => rfl
  | cons n rest ih =>
    obtain ⟨hn, hrest⟩ := List.cons_subset.mp h
    obtain ⟨u, hu⟩ := exists_named? hn
    rw [List.filterMap_cons_some hu, names, List.map_cons, (named?_eq_some hu).2]
    exact congrArg (n :: ·) (ih hrest)

/-- Families that all become groups with their members: the groups, and the names that they claim. -/
lemma Family.propose_map {α : Type} {made : α → GroupProposal → Prop} {family : α → Family} {xs : List α}
    (claimed : List String) (h : ∀ x ∈ xs, ∃ p,
      (family x).proposal = .ok p ∧ p.members = (family x).members ∧ made x p) :
    ∃ ps, Family.propose claimed (xs.map family) =
        (.ok ps, claimed ++ ps.flatMap GroupProposal.memberNames) ∧ List.Forall₂ made xs ps := by
  induction xs generalizing claimed with
  | nil => exact ⟨[], by simp [Family.propose], .nil⟩
  | cons x rest ih =>
    obtain ⟨⟨p, hp, hm, hmade⟩, hrest⟩ := List.forall_mem_cons.mp h
    obtain ⟨ps, hps, hall⟩ := ih (claimed ++ names (family x).members) hrest
    refine ⟨p :: ps, ?_, .cons hmade hall⟩
    simp only [List.map_cons, Family.propose, hp, hps, Except.map, List.flatMap_cons,
      GroupProposal.memberNames, hm, List.append_assoc]

end Named

namespace Searcher

/-- The family that a chain gives. -/
def chainFamily (s : Searcher) (units : List AnalyzedUnit) (claimed : List String) (c : Chain) : Family :=
  let members := (c.free claimed).filterMap (named? units)
  ⟨members, s.chainProposal c.root c.own.length members⟩

/-- The group that a chain gives: its free names in their order, as units. -/
structure Makes (s : Searcher) (units : List AnalyzedUnit) (claimed : List String) (c : Chain)
    (p : GroupProposal) : Prop where
  kind : p.kind = .callChain
  members : p.members ⊆ units
  memberNames : p.memberNames = c.free claimed
  rationale : p.rationale = s!"Call chain of {c.own.length} units starting at '{c.root}'"
  suggestedName : s.groupName (c.free claimed) c.root = .ok p.suggestedName
  confidence : p.confidence = s.settings.callChainConfidence

variable {s : Searcher} {units : List AnalyzedUnit} {g : CallGraph}
  {claimed before now visited rest : List String} {c : Chain}

lemma chainFamily_makes (hs : s.settings.groupNameMinPrefix.number?.isSome)
    (hc : c.free claimed ⊆ names units) :
    ∃ p, (s.chainFamily units claimed c).proposal = .ok p ∧
      p.members = (s.chainFamily units claimed c).members ∧ s.Makes units claimed c p := by
  have hnames := AnalyzedUnit.names_filterMap_named_eq hc
  obtain ⟨name, hname⟩ := groupName_eq_ok hs (c.free claimed) c.root
  have hknown : (c.free claimed).filterMap (named? units) ⊆ units := fun u hu => by
    obtain ⟨n, -, hn⟩ := List.mem_filterMap.mp hu
    exact (AnalyzedUnit.named?_eq_some hn).1
  refine ⟨_, by rw [chainFamily, chainProposal, hnames, hname]; rfl, rfl, ?_⟩
  exact ⟨rfl, hknown, hnames, rfl, hname, rfl⟩

/-- From some starts on the search finds the families of those of their chains that have two free names.
The induction is on the starts; `Searched` says what the loop keeps. -/
lemma chainsFrom_eq (hg : g.Over units) (h : g.Searched claimed before now visited)
    (hrest : rest ⊆ g.nodes) :
    s.chainsFrom units g now visited rest =
      ((g.chains before rest).filter fun c => 2 ≤ (c.free claimed).length).map
        (s.chainFamily units claimed) := by
  induction rest generalizing before now visited with
  | nil => rfl
  | cons r rest ih =>
    obtain ⟨hr, hrest⟩ := List.cons_subset.mp hrest
    rw [CallGraph.chains_cons]
    unfold chainsFrom
    by_cases hv : r ∈ visited
    · have hfree : (g.chainOf before r).free claimed = [] := by
        rw [Chain.free, h.own_eq_nil hg.wellFormed hv, List.filter_nil]
      rw [if_pos (List.contains_iff_mem.mpr hv), List.filter_cons_of_neg (by simp [hfree])]
      exact ih (h.pass hg.wellFormed hv hr) hrest
    · have hc : g.chainOf before r ∈ g.chains before (r :: rest) :=
        CallGraph.chains_cons g before r rest ▸ List.mem_cons_self
      have hnames := AnalyzedUnit.names_filterMap_named_eq
        (hg.free_subset (List.cons_subset.mpr ⟨hr, hrest⟩) hc claimed)
      have hlength := congrArg List.length hnames
      rw [names, List.length_map] at hlength
      rw [if_neg (by simpa using hv)]
      dsimp only
      rw [← h.own_eq hv, ← Chain.free, h.free_eq r, hlength, hnames]
      by_cases htwo : 2 ≤ ((g.chainOf before r).free claimed).length
      · rw [if_neg (not_lt.mpr htwo), List.filter_cons_of_pos (by simpa using htwo), List.map_cons]
        rw [ih (h.next hr (Chain.free_sublist _ _).subset) hrest]
        rfl
      · rw [if_pos (not_le.mp htwo), List.filter_cons_of_neg (by simpa using htwo)]
        have hnext := h.next hr (List.nil_subset _)
        rw [List.append_nil] at hnext
        exact ih hnext hrest

/-- Settling the search gives one group for each chain that has two free names. -/
lemma settle_callChains (hs : s.settings.groupNameMinPrefix.number?.isSome) (hg : g.Over units)
    (claimed : List String) : ∃ groups,
      (s.callChains units g claimed).settle claimed =
        (.ok groups, claimed ++ groups.flatMap GroupProposal.memberNames) ∧
      List.Forall₂ (s.Makes units claimed)
        ((g.chains [] g.chainStarts).filter fun c => 2 ≤ (c.free claimed).length) groups := by
  have hstarts := g.starts_chainStarts.subset_nodes
  have hfamilies : (s.callChains units g claimed).families = .ok
      (((g.chains [] g.chainStarts).filter fun c => 2 ≤ (c.free claimed).length).map
        (s.chainFamily units claimed)) :=
    congrArg Except.ok (chainsFrom_eq hg (g.searched_start claimed) hstarts)
  unfold Detection.settle
  rw [hfamilies]
  exact Family.propose_map claimed fun c hc =>
    chainFamily_makes hs (hg.free_subset hstarts (List.mem_filter.mp hc).1 claimed)

/-- The search for call chains over a graph of some units: from each start in turn, a group of the names
that it gathers, no earlier start gathers and nothing claims, in the order in which they are gathered, if
there are two of them; and no other group. The least length of a shared name has to be a number, or no
group gets a name. -/
theorem callChains_gather (s : Searcher) (units : List AnalyzedUnit) (claimed : List String)
    (hs : s.settings.groupNameMinPrefix.number?.isSome) :
    (∃ g, (CallGraph.build units).outcome = .ok g ∧ g.Over units) ∧
    ∀ g : CallGraph, g.Over units → ∃ starts groups, g.Starts starts ∧
      (s.callChains units g claimed).settle claimed =
        (.ok groups, claimed ++ groups.flatMap GroupProposal.memberNames) ∧
      List.Forall₂ (s.Makes units claimed)
        ((g.chains [] starts).filter fun c => 2 ≤ c.own.length ∧ 2 ≤ (c.free claimed).length) groups := by
  refine ⟨⟨_, rfl, CallGraph.over_ofUnits units⟩, fun g hg => ?_⟩
  obtain ⟨groups, hsettle, hgroups⟩ := settle_callChains hs hg claimed
  refine ⟨g.chainStarts, groups, g.starts_chainStarts, hsettle, ?_⟩
  have hboth : ((g.chains [] g.chainStarts).filter fun c => 2 ≤ c.own.length ∧ 2 ≤ (c.free claimed).length) =
      (g.chains [] g.chainStarts).filter fun c => 2 ≤ (c.free claimed).length := by
    refine List.filter_congr fun c _ => decide_eq_decide.mpr (and_iff_right_of_imp fun htwo => ?_)
    exact htwo.trans (c.free_sublist claimed).length_le
  rw [hboth]
  exact hgroups

/-- A unit that calls others by name. -/
def calling (name : String) (targets : List String) : AnalyzedUnit :=
  { name, calls := targets.map fun n => ⟨n, Call.direct⟩ }

/-- Two roots that both call one unit. -/
def storms : List AnalyzedUnit :=
  [calling "Storm" ["Bolt", "Gust"], calling "Tide" ["Gust", "Wave"], calling "Bolt" [], calling "Gust" [],
    calling "Wave" ["Foam"], calling "Foam" []]

/-- The unit that both call goes with the first root, and the claimed one with none. -/
theorem callChains_gather_storms :
    let s : Searcher := ⟨default, {}⟩
    s.settings.groupNameMinPrefix.number?.isSome ∧
      (∃ starts groups, (CallGraph.ofUnits storms).Starts starts ∧
        (s.callChains storms (.ofUnits storms) ["Bolt"]).settle ["Bolt"] =
          (.ok groups, ["Bolt"] ++ groups.flatMap GroupProposal.memberNames) ∧
        List.Forall₂ (s.Makes storms ["Bolt"])
          (((CallGraph.ofUnits storms).chains [] starts).filter fun c =>
            2 ≤ c.own.length ∧ 2 ≤ (c.free ["Bolt"]).length) groups) ∧
      ((s.callChains storms (.ofUnits storms) ["Bolt"]).settle ["Bolt"]).2 =
        ["Bolt", "Storm", "Gust", "Tide", "Wave", "Foam"] := by
  intro s
  have hs : s.settings.groupNameMinPrefix.number?.isSome := rfl
  have hover := CallGraph.over_ofUnits storms
  exact ⟨hs, (callChains_gather s storms ["Bolt"] hs).2 _ hover, by decide +kernel⟩

end Searcher

end SkillAtlas
