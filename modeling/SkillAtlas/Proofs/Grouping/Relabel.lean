import SkillAtlas.Grouping.Pattern
import SkillAtlas.Proofs.Analysis.Stages
import SkillAtlas.Proofs.Grouping.Partition

/-!
# What the searches look at

The searches for groups look at the names of units and at the calls through which they answer events, and at
nothing else of them. So a change of units that keeps both may be made before the search or, member by
member, after it: each search commutes with it, and so does the grouping as a whole.
-/

namespace SkillAtlas

open AnalyzedUnit (names named? anyCase? unclaimed)

/-- The change keeps the names of units and the calls through which they answer events. -/
structure AnalyzedUnit.Keeps (φ : AnalyzedUnit → AnalyzedUnit) : Prop where
  name : ∀ u, (φ u).name = u.name
  callbacks : ∀ u, (φ u).callbacks = u.callbacks

/-- The group with changed members. -/
def GroupProposal.relabel (φ : AnalyzedUnit → AnalyzedUnit) (p : GroupProposal) : GroupProposal :=
  { p with members := p.members.map φ }

/-- The family with changed members. -/
def Family.relabel (φ : AnalyzedUnit → AnalyzedUnit) (f : Family) : Family :=
  ⟨f.members.map φ, f.proposal.map (GroupProposal.relabel φ)⟩

/-- The encounter with changed members. -/
def Encounter.relabel (φ : AnalyzedUnit → AnalyzedUnit) : Encounter → Encounter
  | .family f => .family (f.relabel φ)
  | .report n => .report n

/-- What a search finds, with changed members. -/
def Detection.relabel (φ : AnalyzedUnit → AnalyzedUnit) (d : Detection) : Detection :=
  ⟨d.notes, d.families.map (List.map (Family.relabel φ))⟩

/-- The groups so far with changed members. -/
def Progress.relabel (φ : AnalyzedUnit → AnalyzedUnit) (p : Progress) : Progress :=
  ⟨p.groups.map (GroupProposal.relabel φ), p.claimed⟩

/-- The grouping with changed units. -/
def Grouping.relabel (φ : AnalyzedUnit → AnalyzedUnit) (r : Grouping) : Grouping :=
  ⟨r.groups.map (GroupProposal.relabel φ), r.standalone.map φ⟩

variable {φ : AnalyzedUnit → AnalyzedUnit}

section Units

lemma AnalyzedUnit.Keeps.names (hφ : Keeps φ) (units : List AnalyzedUnit) :
    names (units.map φ) = names units := by
  simp only [AnalyzedUnit.names, List.map_map, Function.comp_def, hφ.name]

lemma AnalyzedUnit.Keeps.named? (hφ : Keeps φ) (units : List AnalyzedUnit) (n : String) :
    named? (units.map φ) n = (named? units n).map φ := by
  simp only [AnalyzedUnit.named?, ← List.map_reverse, List.find?_map, Function.comp_def, hφ.name]

lemma AnalyzedUnit.Keeps.anyCase? (hφ : Keeps φ) (units : List AnalyzedUnit) (n : String) :
    anyCase? (units.map φ) n = (anyCase? units n).map φ := by
  simp only [AnalyzedUnit.anyCase?, List.find?_map, Function.comp_def, hφ.name]

lemma AnalyzedUnit.Keeps.unclaimed (hφ : Keeps φ) (claimed : List String) (units : List AnalyzedUnit) :
    unclaimed claimed (units.map φ) = (unclaimed claimed units).map φ := by
  simp only [AnalyzedUnit.unclaimed, List.filter_map, Function.comp_def, hφ.name]

lemma AnalyzedUnit.Keeps.filterMap_named? (hφ : Keeps φ) (units : List AnalyzedUnit) (ns : List String) :
    ns.filterMap (AnalyzedUnit.named? (units.map φ)) = (ns.filterMap (AnalyzedUnit.named? units)).map φ := by
  simp only [List.map_filterMap, hφ.named?]

lemma AnalyzedUnit.Keeps.addMember (hφ : Keeps φ) (claimed : List String) (members : List AnalyzedUnit)
    (u : AnalyzedUnit) :
    addMember claimed (members.map φ) (φ u) = (addMember claimed members u).map φ := by
  unfold SkillAtlas.addMember
  rw [hφ.name, hφ.names]
  split
  · rfl
  · rw [List.map_append, List.map_singleton]

lemma AnalyzedUnit.Keeps.foldl_addMember (hφ : Keeps φ) (claimed : List String)
    (members us : List AnalyzedUnit) :
    (us.map φ).foldl (SkillAtlas.addMember claimed) (members.map φ) =
      (us.foldl (SkillAtlas.addMember claimed) members).map φ := by
  induction us generalizing members with
  | nil => rfl
  | cons u rest ih => rw [List.map_cons, List.foldl_cons, List.foldl_cons, hφ.addMember, ih]

lemma AnalyzedUnit.Keeps.satellites (hφ : Keeps φ) (v : Vocabulary) (units : List AnalyzedUnit)
    (base : String) : satellites v (units.map φ) base = (satellites v units base).map φ := by
  unfold SkillAtlas.satellites
  dsimp only
  rw [← hφ.foldl_addMember, List.map_filterMap]
  simp only [hφ.anyCase?]
  rfl

end Units

section Families

lemma Family.relabel_ofProposal (p : GroupProposal) :
    (Family.ofProposal p).relabel φ = .ofProposal (p.relabel φ) :=
  rfl

lemma Family.claims_relabel (hφ : AnalyzedUnit.Keeps φ) (fs : List Family) :
    Family.claims (fs.map (Family.relabel φ)) = Family.claims fs := by
  unfold Family.claims
  rw [List.flatMap_map]
  exact congrArg (fs.flatMap ·) (funext fun f => hφ.names f.members)

lemma Encounter.families_relabel (es : List Encounter) :
    Encounter.families (es.map (Encounter.relabel φ)) = (Encounter.families es).map (Family.relabel φ) := by
  unfold Encounter.families
  rw [List.filterMap_map, List.map_filterMap]
  exact congrArg (es.filterMap ·) (funext fun e => by cases e <;> rfl)

lemma Encounter.reports_relabel (es : List Encounter) :
    Encounter.reports (es.map (Encounter.relabel φ)) = Encounter.reports es := by
  unfold Encounter.reports
  rw [List.filterMap_map]
  exact congrArg (es.filterMap ·) (funext fun e => by cases e <;> rfl)

lemma Family.propose_relabel (hφ : AnalyzedUnit.Keeps φ) (claimed : List String) (fs : List Family) :
    Family.propose claimed (fs.map (Family.relabel φ)) =
      ((Family.propose claimed fs).1.map (List.map (GroupProposal.relabel φ)),
        (Family.propose claimed fs).2) := by
  induction fs generalizing claimed with
  | nil => rfl
  | cons f rest ih =>
    have hnames : names (f.relabel φ).members = names f.members := hφ.names f.members
    simp only [List.map_cons, Family.propose, hnames, ih]
    simp only [Family.relabel]
    cases f.proposal with
    | error e => rfl
    | ok p => cases (Family.propose (claimed ++ names f.members) rest).1 <;> rfl

lemma Detection.settle_relabel (hφ : AnalyzedUnit.Keeps φ) (d : Detection) (claimed : List String) :
    (d.relabel φ).settle claimed =
      ((d.settle claimed).1.map (List.map (GroupProposal.relabel φ)), (d.settle claimed).2) := by
  unfold Detection.settle Detection.relabel
  cases d.families with
  | error e => rfl
  | ok fs => exact Family.propose_relabel hφ claimed fs

end Families

namespace Searcher

variable {s : Searcher}

section Lifecycle

lemma withTargets_relabel (hφ : AnalyzedUnit.Keeps φ) (units : List AnalyzedUnit) (claimed : List String)
    (u : AnalyzedUnit) : withTargets (units.map φ) claimed (φ u) = (withTargets units claimed u).map φ := by
  unfold withTargets
  rw [← hφ.foldl_addMember, hφ.callbacks, List.map_filterMap]
  simp only [hφ.named?]
  rfl

lemma drivenFamily?_relabel (hφ : AnalyzedUnit.Keeps φ) (s : Searcher) (units : List AnalyzedUnit)
    (claimed : List String) (u : AnalyzedUnit) :
    s.drivenFamily? (units.map φ) claimed (φ u) = (s.drivenFamily? units claimed u).map (Family.relabel φ) := by
  unfold drivenFamily?
  rw [hφ.name, hφ.satellites, withTargets_relabel hφ]
  dsimp only
  rw [hφ.foldl_addMember]
  simp only [List.length_map]
  split
  · rfl
  · simp [Family.relabel_ofProposal, drivenProposal, GroupProposal.relabel, hφ.name]

lemma drivenFamilies_relabel (hφ : AnalyzedUnit.Keeps φ) (s : Searcher) (units us : List AnalyzedUnit)
    (claimed : List String) :
    s.drivenFamilies (units.map φ) claimed (us.map φ) =
      (s.drivenFamilies units claimed us).map (Encounter.relabel φ) := by
  induction us generalizing claimed with
  | nil => rfl
  | cons u rest ih =>
    rw [List.map_cons]
    unfold drivenFamilies
    rw [hφ.name, hφ.callbacks, drivenFamily?_relabel hφ, ih]
    split
    · rfl
    · cases s.drivenFamily? units claimed u with
      | none => rfl
      | some f =>
        have hnames : names (f.relabel φ).members = names f.members := hφ.names f.members
        simp only [Option.map_some, List.map_cons, hnames, ih]
        rfl

lemma lifecycleBaseOf?_relabel (hφ : AnalyzedUnit.Keeps φ) (s : Searcher) (units : List AnalyzedUnit)
    (u : AnalyzedUnit) :
    s.lifecycleBaseOf? (units.map φ) (φ u) = (s.lifecycleBaseOf? units u).map φ := by
  unfold lifecycleBaseOf?
  rw [hφ.name]
  cases Naming.lifecycleBase? s.vocabulary u.name with
  | none => rfl
  | some n =>
    simp only [Option.bind_eq_bind, Option.bind_some, hφ.anyCase?, Option.filter_map, Function.comp_def,
      hφ.name]

lemma namedFamily?_relabel (hφ : AnalyzedUnit.Keeps φ) (s : Searcher) (units : List AnalyzedUnit)
    (claimed : List String) (u : AnalyzedUnit) :
    s.namedFamily? (units.map φ) claimed (φ u) = (s.namedFamily? units claimed u).map (Family.relabel φ) := by
  unfold namedFamily?
  rw [lifecycleBaseOf?_relabel hφ, Option.filter_map]
  simp only [Function.comp_def, hφ.name]
  cases (s.lifecycleBaseOf? units u).filter fun base => !claimed.contains base.name with
  | none => rfl
  | some base =>
    simp only [Option.map_some, Option.bind_eq_bind, Option.bind_some, hφ.name, hφ.satellites, hφ.unclaimed,
      ← List.map_cons, List.length_map]
    split
    · rfl
    · simp [Family.relabel_ofProposal, namedProposal, GroupProposal.relabel, hφ.name]

lemma namedFamilies_relabel (hφ : AnalyzedUnit.Keeps φ) (s : Searcher) (units us : List AnalyzedUnit)
    (claimed : List String) :
    s.namedFamilies (units.map φ) claimed (us.map φ) =
      (s.namedFamilies units claimed us).map (Family.relabel φ) := by
  induction us generalizing claimed with
  | nil => rfl
  | cons u rest ih =>
    have hfound : (if claimed.contains (φ u).name then none else s.namedFamily? (units.map φ) claimed (φ u)) =
        (if claimed.contains u.name then none else s.namedFamily? units claimed u).map (Family.relabel φ) := by
      rw [hφ.name, namedFamily?_relabel hφ]
      split <;> rfl
    rw [List.map_cons]
    unfold namedFamilies
    rw [hfound]
    cases if claimed.contains u.name then none else s.namedFamily? units claimed u with
    | none => exact ih claimed
    | some f =>
      have hnames : names (f.relabel φ).members = names f.members := hφ.names f.members
      simp only [Option.map_some, List.map_cons, hnames, ih]

lemma lifecycleFamilies_relabel (hφ : AnalyzedUnit.Keeps φ) (s : Searcher) (units : List AnalyzedUnit)
    (claimed : List String) :
    s.lifecycleFamilies (units.map φ) claimed = (s.lifecycleFamilies units claimed).relabel φ := by
  unfold lifecycleFamilies Detection.relabel
  simp only [drivenFamilies_relabel hφ, Encounter.reports_relabel, Encounter.families_relabel,
    Family.claims_relabel hφ, namedFamilies_relabel hφ, Except.map, List.map_append]

end Lifecycle

section Variants

lemma variantBase?_relabel (hφ : AnalyzedUnit.Keeps φ) (s : Searcher) (units : List AnalyzedUnit)
    (claimed : List String) (u : AnalyzedUnit) :
    s.variantBase? (units.map φ) claimed (φ u) = (s.variantBase? units claimed u).map φ := by
  unfold variantBase?
  simp only [hφ.name, hφ.anyCase?, Option.filter_map, Function.comp_def]
  induction Naming.variantBases s.vocabulary u.name with
  | nil => rfl
  | cons n rest ih =>
    simp only [List.findSome?_cons, ih]
    cases (AnalyzedUnit.anyCase? units n).filter fun base =>
      base.name != u.name && !claimed.contains base.name <;> rfl

lemma variantFamily?_relabel (hφ : AnalyzedUnit.Keeps φ) (s : Searcher) (units : List AnalyzedUnit)
    (claimed : List String) (u : AnalyzedUnit) :
    s.variantFamily? (units.map φ) claimed (φ u) =
      (s.variantFamily? units claimed u).map (Family.relabel φ) := by
  have hderives : ∀ base other, s.derivesFrom (φ base) (φ other) = s.derivesFrom base other := by
    intro base other
    simp only [derivesFrom, hφ.name]
  unfold variantFamily?
  rw [variantBase?_relabel hφ, Option.map_map, Option.map_map]
  refine congrArg (Option.map · _) (funext fun base => ?_)
  have hgathered : ((units.map φ).filter (s.derivesFrom (φ base))).foldl (addMember claimed) [φ base, φ u] =
      ((units.filter (s.derivesFrom base)).foldl (addMember claimed) [base, u]).map φ := by
    rw [← hφ.foldl_addMember, List.filter_map]
    simp only [Function.comp_def, hderives]
    rfl
  simp only [Function.comp_apply, hgathered, Family.relabel_ofProposal]
  simp [variantProposal, GroupProposal.relabel, hφ.name]

lemma variantFamiliesFrom_relabel (hφ : AnalyzedUnit.Keeps φ) (s : Searcher) (units us : List AnalyzedUnit)
    (claimed : List String) :
    s.variantFamiliesFrom (units.map φ) claimed (us.map φ) =
      (s.variantFamiliesFrom units claimed us).map (Encounter.relabel φ) := by
  induction us generalizing claimed with
  | nil => rfl
  | cons u rest ih =>
    rw [List.map_cons]
    unfold variantFamiliesFrom
    rw [hφ.name, variantFamily?_relabel hφ, ih]
    split
    · rfl
    · cases s.variantFamily? units claimed u with
      | none => rfl
      | some f =>
        have hnames : names (f.relabel φ).members = names f.members := hφ.names f.members
        simp only [Option.map_some, List.map_cons, hnames, ih]
        rfl

lemma variantFamilies_relabel (hφ : AnalyzedUnit.Keeps φ) (s : Searcher) (units : List AnalyzedUnit)
    (claimed : List String) :
    s.variantFamilies (units.map φ) claimed = (s.variantFamilies units claimed).relabel φ := by
  unfold variantFamilies Detection.relabel
  simp only [variantFamiliesFrom_relabel hφ, Encounter.reports_relabel, Encounter.families_relabel, Except.map]

end Variants

section Starts

lemma documentPrefix_relabel (hφ : AnalyzedUnit.Keeps φ) (s : Searcher) (units : List AnalyzedUnit)
    (claimed : List String) :
    s.documentPrefix (units.map φ) claimed = (s.documentPrefix units claimed).relabel φ := by
  have hstart : ∀ us, documentStart (us.map φ) = documentStart us := by
    intro us
    simp only [documentStart, hφ.names]
  unfold documentPrefix
  simp only [hφ.unclaimed, List.length_map]
  split
  · rfl
  · cases s.settings.documentPrefixMinLength.number? with
    | none => rfl
    | some limit =>
      simp only [documentStartFor, hstart]
      split
      · rfl
      · split
        · rfl
        · simp [Detection.relabel, Except.map, Family.relabel_ofProposal, documentProposal,
            GroupProposal.relabel]

lemma startGroups_relabel (hφ : AnalyzedUnit.Keeps φ) (s : Searcher) (remaining : List AnalyzedUnit)
    (claimed : List String) (families : List (String × List String)) :
    s.startGroups (remaining.map φ) claimed families =
      (s.startGroups remaining claimed families).map (Family.relabel φ) := by
  induction families generalizing claimed with
  | nil => rfl
  | cons family rest ih =>
    have hproposal : ∀ members, s.startProposal family.1 (members.map φ) =
        (s.startProposal family.1 members).map (GroupProposal.relabel φ) := by
      intro members
      simp only [startProposal, List.length_map]
      cases s.startConfidence (.int members.length) <;> rfl
    unfold startGroups
    simp only [hφ.filterMap_named?, List.length_map, hφ.names, hproposal, ih]
    split <;> rfl

lemma residualPrefixes_relabel (hφ : AnalyzedUnit.Keeps φ) (s : Searcher) (units : List AnalyzedUnit)
    (claimed : List String) :
    s.residualPrefixes (units.map φ) claimed = (s.residualPrefixes units claimed).relabel φ := by
  unfold residualPrefixes Detection.relabel
  simp only [hφ.unclaimed, hφ.names]
  cases Naming.startFamiliesFor s.settings.namingPrefixMinLength (names (unclaimed claimed units)) with
  | error e => rfl
  | ok families => simp only [Except.map, startGroups_relabel hφ]

lemma suffixGroups_relabel (hφ : AnalyzedUnit.Keeps φ) (s : Searcher) (remaining : List AnalyzedUnit)
    (claimed : List String) (families : List (String × List String)) :
    s.suffixGroups (remaining.map φ) claimed families =
      (s.suffixGroups remaining claimed families).map (Family.relabel φ) := by
  induction families generalizing claimed with
  | nil => rfl
  | cons family rest ih =>
    have hnamed : (remaining.map φ).filter (fun u => family.2.contains u.name) =
        (remaining.filter fun u => family.2.contains u.name).map φ := by
      simp only [List.filter_map, Function.comp_def, hφ.name]
    unfold suffixGroups
    simp only [hnamed, hφ.unclaimed, List.length_map, hφ.names, ih]
    split
    · rfl
    · simp [Family.relabel_ofProposal, suffixProposal, GroupProposal.relabel]

lemma residualSuffixes_relabel (hφ : AnalyzedUnit.Keeps φ) (s : Searcher) (units : List AnalyzedUnit)
    (claimed : List String) :
    s.residualSuffixes (units.map φ) claimed = (s.residualSuffixes units claimed).relabel φ := by
  unfold residualSuffixes Detection.relabel
  simp only [hφ.unclaimed, hφ.names, suffixGroups_relabel hφ, Except.map]

end Starts

section Chains

lemma chainsFrom_relabel (hφ : AnalyzedUnit.Keeps φ) (s : Searcher) (units : List AnalyzedUnit)
    (g : CallGraph) (claimed visited roots : List String) :
    s.chainsFrom (units.map φ) g claimed visited roots =
      (s.chainsFrom units g claimed visited roots).map (Family.relabel φ) := by
  induction roots generalizing claimed visited with
  | nil => rfl
  | cons root rest ih =>
    have hproposal : ∀ length members, s.chainProposal root length (members.map φ) =
        (s.chainProposal root length members).map (GroupProposal.relabel φ) := by
      intro length members
      simp only [chainProposal, hφ.names]
      cases s.groupName (names members) root <;> rfl
    unfold chainsFrom
    simp only [hφ.filterMap_named?, List.length_map, hφ.names, hproposal, ih]
    split
    · rfl
    · split <;> rfl

lemma callChains_relabel (hφ : AnalyzedUnit.Keeps φ) (s : Searcher) (units : List AnalyzedUnit)
    (g : CallGraph) (claimed : List String) :
    s.callChains (units.map φ) g claimed = (s.callChains units g claimed).relabel φ := by
  unfold callChains Detection.relabel
  simp only [chainsFrom_relabel hφ, Except.map]

lemma chainsFrom_congr {g h : CallGraph} (hg : g.transitiveCalls = h.transitiveCalls) (s : Searcher)
    (units : List AnalyzedUnit) (claimed visited roots : List String) :
    s.chainsFrom units g claimed visited roots = s.chainsFrom units h claimed visited roots := by
  induction roots generalizing claimed visited with
  | nil => rfl
  | cons root rest ih =>
    unfold chainsFrom
    simp only [hg, ih]

/-- Chains are gathered along links; what the edges say besides does not matter. -/
lemma callChains_congr {g h : CallGraph} (hn : g.nodes = h.nodes) (hl : g.links = h.links) (s : Searcher)
    (units : List AnalyzedUnit) (claimed : List String) :
    s.callChains units g claimed = s.callChains units h claimed := by
  have hcalls : g.calls = h.calls := by
    funext n
    rw [CallGraph.calls, CallGraph.calls, hl]
  have hreached : g.transitiveCalls = h.transitiveCalls := by
    have hsucc : g.successors = h.successors := by
      funext n
      rw [CallGraph.successors, CallGraph.successors, hcalls]
    funext n
    rw [CallGraph.transitiveCalls, CallGraph.transitiveCalls, hn, hsucc]
  have hstarts : g.chainStarts = h.chainStarts := by
    have hroots : g.roots = h.roots := by
      simp only [CallGraph.roots, CallGraph.calledBy, hn, hl, hcalls]
    have hbusiest : g.busiest? = h.busiest? := by
      simp only [CallGraph.busiest?, hn, hcalls]
    rw [CallGraph.chainStarts, CallGraph.chainStarts, hroots, hbusiest]
  rw [callChains, callChains, chainsFrom_congr hreached, hstarts]

end Chains

section Synthesis

variable {find changed : List String → Detection} {p : Progress}

lemma advance_relabel (hφ : AnalyzedUnit.Keeps φ) (hf : ∀ claimed, changed claimed = (find claimed).relabel φ)
    (p : Progress) :
    (advance changed (p.relabel φ)).outcome = (advance find p).outcome.map (Progress.relabel φ) := by
  rw [advance_outcome, advance_outcome, hf, Detection.settle_relabel hφ]
  show Except.map _ (Except.map _ ((find p.claimed).settle p.claimed).1) = _
  cases ((find p.claimed).settle p.claimed).1 with
  | error e => rfl
  | ok ps => simp only [Except.map, Progress.relabel, List.map_append]

lemma search_relabel (hφ : AnalyzedUnit.Keeps φ) (hf : ∀ claimed, changed claimed = (find claimed).relabel φ)
    (kind : Search) (p : Progress) :
    (search kind changed (p.relabel φ)).outcome = (search kind find p).outcome.map (Progress.relabel φ) := by
  rw [search_outcome, search_outcome]
  exact advance_relabel hφ hf p

lemma secondSearch_relabel (hφ : AnalyzedUnit.Keeps φ) (s : Searcher) (units : List AnalyzedUnit)
    (kind : ContextKind) (p : Progress) :
    (s.secondSearch (units.map φ) kind (p.relabel φ)).outcome =
      (s.secondSearch units kind p).outcome.map (Progress.relabel φ) := by
  unfold secondSearch
  cases kind with
  | mob => exact search_relabel hφ (s.variantFamilies_relabel hφ units) _ p
  | skillFile =>
    have hempty : (p.relabel φ).groups.isEmpty = p.groups.isEmpty := List.isEmpty_map
    simp only [hempty]
    split
    · exact search_relabel hφ (s.documentPrefix_relabel hφ units) _ p
    · rfl

lemma lastSearch_relabel (hφ : AnalyzedUnit.Keeps φ) (s : Searcher) (units : List AnalyzedUnit)
    (kind : ContextKind) (p : Progress) :
    (s.lastSearch (units.map φ) kind (p.relabel φ)).outcome =
      (s.lastSearch units kind p).outcome.map (Progress.relabel φ) := by
  unfold lastSearch
  cases kind with
  | mob => rfl
  | skillFile =>
    simp only [Journal.outcome_then]
    rw [advance_relabel hφ (s.residualPrefixes_relabel hφ units)]
    refine Fault.bind_map _ fun q => ?_
    rw [advance_relabel hφ (s.residualSuffixes_relabel hφ units)]
    exact Fault.bind_map _ fun r => rfl

/-- Changed units are grouped as the units are. -/
theorem synthesize_relabel (hφ : AnalyzedUnit.Keeps φ) (s : Searcher) (units : List AnalyzedUnit)
    {g h : CallGraph} (hn : h.nodes = g.nodes) (hl : h.links = g.links) (kind : ContextKind) :
    (s.synthesize (units.map φ) h kind).outcome =
      (s.synthesize units g kind).outcome.map (Grouping.relabel φ) := by
  have hchains : ∀ claimed, s.callChains (units.map φ) h claimed =
      (s.callChains units g claimed).relabel φ := by
    intro claimed
    rw [callChains_congr hn hl, callChains_relabel hφ]
  unfold synthesize
  simp only [Journal.outcome_then]
  have hstart := search_relabel hφ (s.lifecycleFamilies_relabel hφ units) .lifecycle {}
  rw [show Progress.relabel φ {} = {} from rfl] at hstart
  rw [hstart]
  refine Fault.bind_map _ fun p => ?_
  rw [s.secondSearch_relabel hφ]
  refine Fault.bind_map _ fun q => ?_
  rw [search_relabel hφ hchains]
  refine Fault.bind_map _ fun t => ?_
  rw [s.lastSearch_relabel hφ]
  refine Fault.bind_map _ fun w => ?_
  simp only [Progress.relabel, hφ.unclaimed]
  rfl

end Synthesis

section Patterns

lemma variantPattern?_relabel (hφ : AnalyzedUnit.Keeps φ) (s : Searcher) (units : List AnalyzedUnit)
    (name : String) : s.variantPattern? (units.map φ) name = s.variantPattern? units name := by
  unfold variantPattern?
  simp only [hφ.anyCase?, Option.filter_map, Function.comp_def, hφ.name]
  induction Naming.variantBases s.vocabulary name with
  | nil => rfl
  | cons n rest ih =>
    simp only [List.findSome?_cons] at ih ⊢
    cases (AnalyzedUnit.anyCase? units n).filter fun base => base.name != name with
    | none => exact ih
    | some base => simp only [Option.map_some, hφ.name]

lemma lifecycleBases_relabel (hφ : AnalyzedUnit.Keeps φ) (s : Searcher) (units : List AnalyzedUnit) :
    s.lifecycleBases (units.map φ) = (s.lifecycleBases units).map φ := by
  have hbase : ∀ u, (do AnalyzedUnit.anyCase? (units.map φ) (← Naming.lifecycleBase? s.vocabulary (φ u).name)) =
      (do AnalyzedUnit.anyCase? units (← Naming.lifecycleBase? s.vocabulary u.name) :
        Option AnalyzedUnit).map φ := by
    intro u
    rw [hφ.name]
    cases Naming.lifecycleBase? s.vocabulary u.name with
    | none => rfl
    | some n => exact hφ.anyCase? units n
  unfold lifecycleBases
  rw [← hφ.foldl_addMember, List.filterMap_map, List.map_filterMap]
  simp only [Function.comp_def, hbase]
  rfl

lemma lifecyclePattern_relabel (hφ : AnalyzedUnit.Keeps φ) (s : Searcher) (units : List AnalyzedUnit)
    (base : AnalyzedUnit) : s.lifecyclePattern (units.map φ) (φ base) = s.lifecyclePattern units base := by
  simp only [lifecyclePattern, hφ.name, hφ.satellites, hφ.names]

/-- Naming patterns are read from names alone. -/
theorem namingPatterns_relabel (hφ : AnalyzedUnit.Keeps φ) (s : Searcher) (units : List AnalyzedUnit)
    (kind : ContextKind) : s.namingPatterns (units.map φ) kind = s.namingPatterns units kind := by
  cases kind with
  | mob => simp only [namingPatterns, hφ.names, variantPattern?_relabel hφ]
  | skillFile =>
    simp only [namingPatterns, skillPatterns, hφ.names, lifecycleBases_relabel hφ, List.map_map,
      Function.comp_def, lifecyclePattern_relabel hφ]

end Patterns

end Searcher

end SkillAtlas
