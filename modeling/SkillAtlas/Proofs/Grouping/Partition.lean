import SkillAtlas.Grouping.Synthesis
import SkillAtlas.Proofs.Grouping.Search

/-!
# Grouping takes a document apart

The searches hand one list of claimed names from one to the next. Each is sound for what it is handed, so
the groups of all of them together are apart, and what is left over stands alone: every unit is a member
of exactly one group or stands alone, once. The groups come in the order of the searches.
-/

namespace SkillAtlas

open AnalyzedUnit (names unclaimed)

lemma Journal.bind_eq_ok {α β : Type} {j : Journal α} {f : α → Journal β} {b : β} :
    (j >>= f).outcome = .ok b ↔ ∃ a, j.outcome = .ok a ∧ (f a).outcome = .ok b := by
  rw [Journal.outcome_bind]
  cases j.outcome <;> simp [bind, Except.bind]

/-- All groups so far are apart, and the claimed names are those of their members. -/
structure Progress.Covers (units : List AnalyzedUnit) (p : Progress) : Prop where
  apart : Apart units [] (GroupProposal.parts p.groups)
  claims : p.claimed = names (GroupProposal.parts p.groups).flatten

lemma Progress.covers_start (units : List AnalyzedUnit) : Progress.Covers units {} :=
  ⟨.nil [], rfl⟩

namespace Searcher

section Advance

variable {units : List AnalyzedUnit} {k : GroupKind} {ready : Prop} {find : List String → Detection}
  {kind : Search} {p q : Progress}

/-- What one search adds to the groups so far. -/
structure Adds (units : List AnalyzedUnit) (k : GroupKind) (find : List String → Detection)
    (p q : Progress) (ps : List GroupProposal) : Prop where
  groups : q.groups = p.groups ++ ps
  found : (find p.claimed).settle p.claimed = (.ok ps, q.claimed)
  settled : Settled units p.claimed k ps q.claimed

lemma advance_outcome (find : List String → Detection) (p : Progress) :
    (advance find p).outcome = ((find p.claimed).settle p.claimed).1.map fun ps =>
      ⟨p.groups ++ ps, ((find p.claimed).settle p.claimed).2⟩ := by
  unfold advance Detection.run
  simp only [Journal.outcome_bind, Journal.outcome_noteAll]
  cases (find p.claimed).settle p.claimed with
  | mk groups after => cases groups <;> rfl

lemma search_outcome (kind : Search) (find : List String → Detection) (p : Progress) :
    (search kind find p).outcome = (advance find p).outcome := by
  unfold search
  rw [Journal.outcome_bind]
  cases (advance find p).outcome <;> rfl

lemma exists_settle_of_advance (h : (advance find p).outcome = .ok q) :
    ∃ ps, (find p.claimed).settle p.claimed = (.ok ps, q.claimed) ∧ q.groups = p.groups ++ ps := by
  rw [advance_outcome] at h
  obtain ⟨ps, hps, rfl⟩ := Fault.map_eq_ok.mp h
  exact ⟨ps, Prod.ext hps rfl, rfl⟩

lemma adds_of_advance (hs : ∀ claimed, (find claimed).Sound units claimed k ready)
    (h : (advance find p).outcome = .ok q) : ∃ ps, Adds units k find p q ps := by
  obtain ⟨ps, hf, hgroups⟩ := exists_settle_of_advance h
  exact ⟨ps, hgroups, hf, (hs p.claimed).settled hf⟩

lemma adds_of_search (hs : ∀ claimed, (find claimed).Sound units claimed k ready)
    (h : (search kind find p).outcome = .ok q) : ∃ ps, Adds units k find p q ps :=
  adds_of_advance hs (search_outcome kind find p ▸ h)

lemma advance_eq_ok (hs : ∀ claimed, (find claimed).Sound units claimed k ready) (hr : ready)
    (p : Progress) : ∃ q, (advance find p).outcome = .ok q := by
  obtain ⟨ps, after, hf⟩ := (hs p.claimed).settle_eq_ok hr
  rw [advance_outcome, hf]
  exact ⟨_, rfl⟩

lemma search_eq_ok (hs : ∀ claimed, (find claimed).Sound units claimed k ready) (hr : ready)
    (p : Progress) : ∃ q, (search kind find p).outcome = .ok q := by
  rw [search_outcome]
  exact advance_eq_ok hs hr p

lemma Adds.covers {ps : List GroupProposal} (h : Adds units k find p q ps) (hp : p.Covers units) :
    q.Covers units := by
  have hparts : GroupProposal.parts q.groups = GroupProposal.parts p.groups ++ GroupProposal.parts ps := by
    rw [h.groups]
    exact List.map_append
  constructor
  · rw [hparts]
    refine hp.apart.append ?_
    rw [List.nil_append, ← hp.claims]
    exact h.settled.apart
  · rw [h.settled.claims, hp.claims, hparts, List.flatten_append]
    exact List.map_append.symm

/-- A search finds nothing once every unit is claimed. -/
lemma Adds.eq_nil {ps : List GroupProposal} (h : Adds units k find p q ps)
    (hall : ∀ u ∈ units, u.name ∈ p.claimed) : ps = [] ∧ q = p := by
  have hnil : ps = [] := by
    cases ps with
    | nil => rfl
    | cons r rest =>
      cases h.settled.apart with
      | cons first others =>
        obtain ⟨u, hu⟩ := List.exists_mem_of_length_pos (lt_of_lt_of_le Nat.two_pos first.two)
        exact absurd (hall u (first.known u hu)) (first.free u hu)
  subst hnil
  refine ⟨rfl, ?_⟩
  have hg := h.groups
  have hc := h.settled.claims
  cases p
  cases q
  simp_all [GroupProposal.parts, names]

end Advance

variable {s : Searcher} {units : List AnalyzedUnit} {g : CallGraph} {kind : ContextKind} {p q r t : Progress}

lemma lastSearch_skillFile_eq_ok : (s.lastSearch units .skillFile p).outcome = .ok t ↔
    ∃ m, (advance (s.residualPrefixes units) p).outcome = .ok m ∧
      (advance (s.residualSuffixes units) m).outcome = .ok t := by
  constructor
  · intro h
    obtain ⟨m, hm, h⟩ := Journal.bind_eq_ok.mp h
    obtain ⟨t', ht, h⟩ := Journal.bind_eq_ok.mp h
    obtain rfl : t' = t := Except.ok.inj h
    exact ⟨m, hm, ht⟩
  · rintro ⟨m, hm, ht⟩
    exact Journal.bind_eq_ok.mpr ⟨m, hm, Journal.bind_eq_ok.mpr ⟨t, ht, rfl⟩⟩

/-- The searches in turn, each from where the one before it ended. -/
structure Run (s : Searcher) (units : List AnalyzedUnit) (g : CallGraph) (kind : ContextKind)
    (p q r t : Progress) : Prop where
  lifecycle : (search .lifecycle (s.lifecycleFamilies units) {}).outcome = .ok p
  second : (s.secondSearch units kind p).outcome = .ok q
  chains : (search .callChains (s.callChains units g) q).outcome = .ok r
  last : (s.lastSearch units kind r).outcome = .ok t

lemma exists_run_of_synthesize {d : Grouping} (h : (s.synthesize units g kind).outcome = .ok d) :
    ∃ p q r t, s.Run units g kind p q r t ∧ d = ⟨t.groups, unclaimed t.claimed units⟩ := by
  obtain ⟨p, hp, h⟩ := Journal.bind_eq_ok.mp h
  obtain ⟨q, hq, h⟩ := Journal.bind_eq_ok.mp h
  obtain ⟨r, hr, h⟩ := Journal.bind_eq_ok.mp h
  obtain ⟨t, ht, h⟩ := Journal.bind_eq_ok.mp h
  obtain rfl := Except.ok.inj h
  exact ⟨p, q, r, t, ⟨hp, hq, hr, ht⟩, rfl⟩

lemma Run.synthesize (h : s.Run units g kind p q r t) :
    (s.synthesize units g kind).outcome = .ok ⟨t.groups, unclaimed t.claimed units⟩ :=
  Journal.bind_eq_ok.mpr ⟨p, h.lifecycle, Journal.bind_eq_ok.mpr ⟨q, h.second, Journal.bind_eq_ok.mpr
    ⟨r, h.chains, Journal.bind_eq_ok.mpr ⟨t, h.last, rfl⟩⟩⟩⟩

/-- The search for one start of all names gives no group, or one group of all units that are left. -/
lemma settle_documentPrefix {claimed after : List String} {ps : List GroupProposal}
    (h : (s.documentPrefix units claimed).settle claimed = (.ok ps, after)) :
    ps = [] ∨ ∃ p, ps = [p] ∧ p.members = unclaimed claimed units := by
  unfold documentPrefix documentStartFor at h
  dsimp only at h
  split at h
  · simp only [Detection.settle, Family.propose, Prod.mk.injEq, Except.ok.injEq] at h
    exact Or.inl h.1.symm
  · split at h
    · simp [Detection.settle] at h
    · split at h
      · simp only [Detection.settle, Family.propose, Prod.mk.injEq, Except.ok.injEq] at h
        exact Or.inl h.1.symm
      · split at h
        · simp only [Detection.settle, Family.propose, Prod.mk.injEq, Except.ok.injEq] at h
          exact Or.inl h.1.symm
        · simp only [Detection.settle, Family.propose, Family.ofProposal, Except.map, Prod.mk.injEq,
            Except.ok.injEq] at h
          exact Or.inr ⟨_, h.1.symm, rfl⟩

/-- The groups of a document in the order of the searches, after those of the search for lifecycle
families. -/
inductive InPriority (first : List GroupProposal) : ContextKind → List GroupProposal → Prop where
  | mob {variants chains : List GroupProposal}
      (variantKind : ∀ p ∈ variants, p.kind = .mobVariants)
      (chainKind : ∀ p ∈ chains, p.kind = .callChain) :
      InPriority first .mob (first ++ variants ++ chains)
  | skillFile {document chains starts suffixes : List GroupProposal}
      (documentKind : ∀ p ∈ document, p.kind = .documentPrefix)
      (one : document.length ≤ 1)
      (alone : document ≠ [] → first = [])
      (chainKind : ∀ p ∈ chains, p.kind = .callChain)
      (startKind : ∀ p ∈ starts, p.kind = .sharedPrefix)
      (suffixKind : ∀ p ∈ suffixes, p.kind = .lifecycleSuffixes) :
      InPriority first .skillFile (first ++ document ++ chains ++ starts ++ suffixes)

/-- What a run of the searches leads to: the groups before the rest of the units is left alone. -/
structure Outcome (s : Searcher) (units : List AnalyzedUnit) (kind : ContextKind) (p : Progress) :
    Prop where
  covers : p.Covers units
  order : ∃ first, ((s.lifecycleFamilies units []).settle []).1 = .ok first ∧
    (∀ q ∈ first, q.kind = .lifecycleSuffixes) ∧ InPriority first kind p.groups
  whole : ∀ q ∈ p.groups, q.kind = .documentPrefix → p.groups = [q] ∧ q.members = units

/-- The searches for mobs. -/
lemma outcome_mob (h : s.Run units g .mob p q r t) : s.Outcome units .mob t := by
  obtain ⟨first, hfirst⟩ := adds_of_search (s.lifecycleFamilies_sound units) h.lifecycle
  obtain ⟨variants, hvariants⟩ := adds_of_search (s.variantFamilies_sound units) h.second
  obtain ⟨chains, hchains⟩ := adds_of_search (s.callChains_sound units g) h.chains
  obtain rfl : r = t := Except.ok.inj h.last
  have hgroups : r.groups = first ++ variants ++ chains := by
    rw [hchains.groups, hvariants.groups, hfirst.groups, List.nil_append]
  refine ⟨hchains.covers (hvariants.covers (hfirst.covers (Progress.covers_start units))),
    ⟨first, by rw [hfirst.found], hfirst.settled.kind, ?_⟩, ?_⟩
  · rw [hgroups]
    exact .mob hvariants.settled.kind hchains.settled.kind
  · intro d hd hk
    rw [hgroups, List.mem_append, List.mem_append] at hd
    rcases hd with (hd | hd) | hd
    · exact absurd (hk.symm.trans (hfirst.settled.kind d hd)) (by decide)
    · exact absurd (hk.symm.trans (hvariants.settled.kind d hd)) (by decide)
    · exact absurd (hk.symm.trans (hchains.settled.kind d hd)) (by decide)

/-- What the second search for skills adds: at most one group, which then is alone and holds all units. -/
structure AddsDocument (units : List AnalyzedUnit) (p q : Progress) (document : List GroupProposal) :
    Prop where
  groups : q.groups = p.groups ++ document
  covers : q.Covers units
  kind : ∀ d ∈ document, d.kind = .documentPrefix
  one : document.length ≤ 1
  alone : document ≠ [] → p.groups = []
  whole : ∀ d ∈ document, d.members = units

lemma addsDocument_of_secondSearch (hn : (names units).Nodup) (hp : p.Covers units)
    (h : (s.secondSearch units .skillFile p).outcome = .ok q) :
    ∃ document, AddsDocument units p q document := by
  unfold secondSearch at h
  dsimp only at h
  split at h
  · rename_i hempty
    have hnil : p.groups = [] := List.isEmpty_iff.mp hempty
    have hclaimed : p.claimed = [] := by rw [hp.claims, hnil]; rfl
    obtain ⟨document, hd⟩ := adds_of_search (s.documentPrefix_sound hn) h
    have hfound := settle_documentPrefix hd.found
    rw [hclaimed] at hfound
    have hall : unclaimed [] units = units := by simp [unclaimed]
    refine ⟨document, hd.groups, hd.covers hp, hd.settled.kind, ?_, fun _ => hnil, ?_⟩
    · rcases hfound with rfl | ⟨d, rfl, -⟩
      · exact Nat.zero_le 1
      · exact Nat.le_refl 1
    · intro d hd
      rcases hfound with rfl | ⟨e, rfl, hm⟩
      · simp at hd
      · obtain rfl := List.mem_singleton.mp hd
        rw [hm, hall]
  · obtain rfl := Except.ok.inj h
    exact ⟨[], by simp, hp, by simp, by simp, by simp, by simp⟩

/-- A group of the whole document claims every unit. -/
lemma AddsDocument.claims {document : List GroupProposal} {d : GroupProposal}
    (h : AddsDocument units p q document) (hd : d ∈ document) :
    q.groups = [d] ∧ ∀ u ∈ units, u.name ∈ q.claimed := by
  have hone := h.one
  have hgroups : q.groups = [d] := by
    rw [h.groups, h.alone (List.ne_nil_of_mem hd), List.nil_append]
    cases document with
    | nil => simp at hd
    | cons e rest =>
      have hrest : rest = [] := List.eq_nil_of_length_eq_zero (by simp only [List.length_cons] at hone; omega)
      subst hrest
      rw [List.mem_singleton.mp hd]
  refine ⟨hgroups, fun u hu => ?_⟩
  rw [h.covers.claims, hgroups]
  refine List.mem_map_of_mem ?_
  simpa [GroupProposal.parts, h.whole d hd] using hu

/-- The searches for skills. -/
lemma outcome_skillFile (hn : (names units).Nodup) (h : s.Run units g .skillFile p q r t) :
    s.Outcome units .skillFile t := by
  obtain ⟨first, hfirst⟩ := adds_of_search (s.lifecycleFamilies_sound units) h.lifecycle
  have hcovers := hfirst.covers (Progress.covers_start units)
  obtain ⟨document, hdocument⟩ := addsDocument_of_secondSearch hn hcovers h.second
  obtain ⟨chains, hchains⟩ := adds_of_search (s.callChains_sound units g) h.chains
  obtain ⟨m, hm, ht⟩ := lastSearch_skillFile_eq_ok.mp h.last
  obtain ⟨starts, hstarts⟩ := adds_of_advance (s.residualPrefixes_sound units) hm
  obtain ⟨suffixes, hsuffixes⟩ := adds_of_advance (s.residualSuffixes_sound hn) ht
  have hgroups : t.groups = first ++ document ++ chains ++ starts ++ suffixes := by
    rw [hsuffixes.groups, hstarts.groups, hchains.groups, hdocument.groups, hfirst.groups,
      List.nil_append]
  refine ⟨hsuffixes.covers (hstarts.covers (hchains.covers hdocument.covers)),
    ⟨first, by rw [hfirst.found], hfirst.settled.kind, ?_⟩, ?_⟩
  · rw [hgroups]
    refine .skillFile hdocument.kind hdocument.one (fun hne => ?_) hchains.settled.kind
      hstarts.settled.kind hsuffixes.settled.kind
    simpa [hfirst.groups] using hdocument.alone hne
  · intro d hd hk
    rw [hgroups, List.mem_append, List.mem_append, List.mem_append, List.mem_append] at hd
    rcases hd with (((hd | hd) | hd) | hd) | hd
    · exact absurd (hk.symm.trans (hfirst.settled.kind d hd)) (by decide)
    · -- the later searches find every unit claimed
      obtain ⟨hone, hall⟩ := hdocument.claims hd
      obtain ⟨-, rfl⟩ := hchains.eq_nil hall
      obtain ⟨-, rfl⟩ := hstarts.eq_nil hall
      obtain ⟨-, rfl⟩ := hsuffixes.eq_nil hall
      exact ⟨hone, hdocument.whole d hd⟩
    · exact absurd (hk.symm.trans (hchains.settled.kind d hd)) (by decide)
    · exact absurd (hk.symm.trans (hstarts.settled.kind d hd)) (by decide)
    · exact absurd (hk.symm.trans (hsuffixes.settled.kind d hd)) (by decide)

/-- The groups of a document are those of a run of the searches, and what they leave stands alone. -/
lemma outcome_of_synthesize {d : Grouping} (hn : (names units).Nodup)
    (h : (s.synthesize units g kind).outcome = .ok d) :
    ∃ p, s.Outcome units kind p ∧ d.groups = p.groups ∧ d.standalone = unclaimed p.claimed units := by
  obtain ⟨p, q, r, t, hrun, rfl⟩ := exists_run_of_synthesize h
  refine ⟨t, ?_, rfl, rfl⟩
  cases kind with
  | mob => exact outcome_mob hrun
  | skillFile => exact outcome_skillFile hn hrun

lemma secondSearch_eq_ok (hn : (names units).Nodup) (hr : s.Ready units) (kind : ContextKind)
    (p : Progress) : ∃ q, (s.secondSearch units kind p).outcome = .ok q := by
  cases kind with
  | mob => exact search_eq_ok (s.variantFamilies_sound units) hr p
  | skillFile =>
    unfold secondSearch
    dsimp only
    split
    · exact search_eq_ok (s.documentPrefix_sound hn) hr p
    · exact ⟨p, rfl⟩

lemma lastSearch_eq_ok (hn : (names units).Nodup) (hr : s.Ready units) (kind : ContextKind)
    (p : Progress) : ∃ q, (s.lastSearch units kind p).outcome = .ok q := by
  cases kind with
  | mob => exact ⟨p, rfl⟩
  | skillFile =>
    obtain ⟨q, hq⟩ := advance_eq_ok (s.residualPrefixes_sound units) hr p
    obtain ⟨t, ht⟩ := advance_eq_ok (s.residualSuffixes_sound hn) hr q
    exact ⟨t, lastSearch_skillFile_eq_ok.mpr ⟨q, hq, ht⟩⟩

/-- With settings that are numbers the grouping of a document gives a result. -/
lemma synthesize_eq_ok (hn : (names units).Nodup) (hr : s.Ready units) (g : CallGraph)
    (kind : ContextKind) : ∃ r, (s.synthesize units g kind).outcome = .ok r := by
  obtain ⟨p, hp⟩ : ∃ p, (search .lifecycle (s.lifecycleFamilies units) {}).outcome = .ok p :=
    search_eq_ok (s.lifecycleFamilies_sound units) hr {}
  obtain ⟨q, hq⟩ := secondSearch_eq_ok hn hr kind p
  obtain ⟨t, ht⟩ : ∃ t, (search .callChains (s.callChains units g) q).outcome = .ok t :=
    search_eq_ok (s.callChains_sound units g) hr q
  obtain ⟨w, hw⟩ := lastSearch_eq_ok hn hr kind t
  exact ⟨_, Run.synthesize ⟨hp, hq, ht, hw⟩⟩

end Searcher

/-- The groups and what stands alone take the units apart: each unit is a member of one group, once, or
stands alone, once. -/
structure Grouping.Partitions (units : List AnalyzedUnit) (r : Grouping) : Prop where
  once : (r.groups.flatMap GroupProposal.members ++ r.standalone).Perm units
  two : ∀ p ∈ r.groups, 2 ≤ p.members.length
  inOrder : r.standalone.Sublist units

lemma Progress.Covers.partitions {units : List AnalyzedUnit} {p : Progress} (hn : (names units).Nodup)
    (h : p.Covers units) : Grouping.Partitions units ⟨p.groups, unclaimed p.claimed units⟩ where
  once := by
    have hmem : ∀ u, u ∈ p.groups.flatMap GroupProposal.members ↔
        u ∈ (GroupProposal.parts p.groups).flatten := by
      intro u
      rw [List.flatMap_def, GroupProposal.parts]
    have hunits : units.Nodup := List.Nodup.of_map _ hn
    have hparts : (GroupProposal.parts p.groups).flatten.Nodup := List.Nodup.of_map _ h.apart.nodup_names
    have hnodup : (p.groups.flatMap GroupProposal.members ++ unclaimed p.claimed units).Nodup := by
      rw [List.flatMap_def]
      refine List.nodup_append.mpr ⟨hparts, hunits.filter _, fun u hu v hv huv => ?_⟩
      refine (AnalyzedUnit.mem_unclaimed.mp hv).2 ?_
      rw [h.claims, ← huv]
      exact List.mem_map_of_mem hu
    rw [List.perm_ext_iff_of_nodup hnodup hunits]
    intro u
    rw [List.mem_append, hmem, AnalyzedUnit.mem_unclaimed]
    constructor
    · rintro (hu | hu)
      · exact h.apart.mem_units u hu
      · exact hu.1
    · intro hu
      by_cases hc : u.name ∈ p.claimed
      · rw [h.claims] at hc
        obtain ⟨v, hv, he⟩ := List.mem_map.mp hc
        have hvu : v = u := List.inj_on_of_nodup_map hn (h.apart.mem_units v hv) hu he
        exact Or.inl (hvu ▸ hv)
      · exact Or.inr ⟨hu, hc⟩
  two q hq := h.apart.two_le _ (List.mem_map_of_mem hq)
  inOrder := List.filter_sublist

/-- Grouping takes the units of a document apart, and its groups come in the order of the searches. A
group of the whole document is the only one and leaves no unit alone. There is a result whenever the
settings are numbers. -/
theorem synthesize_partitions (s : Searcher) (units : List AnalyzedUnit) (hn : (names units).Nodup)
    (g : CallGraph) (kind : ContextKind) :
    (s.settings.Numeric → units.length < 2 ^ 63 → ∃ r, (s.synthesize units g kind).outcome = .ok r) ∧
      ∀ r, (s.synthesize units g kind).outcome = .ok r →
        r.Partitions units ∧
        (∃ first, ((s.lifecycleFamilies units []).settle []).1 = .ok first ∧
          (∀ p ∈ first, p.kind = .lifecycleSuffixes) ∧ Searcher.InPriority first kind r.groups) ∧
        ∀ p ∈ r.groups, p.kind = .documentPrefix →
          r.groups = [p] ∧ p.members = units ∧ r.standalone = [] := by
  refine ⟨fun hs hl => s.synthesize_eq_ok hn ⟨hs, hl⟩ g kind, fun r hr => ?_⟩
  obtain ⟨p, hp, hgroups, halone⟩ := s.outcome_of_synthesize hn hr
  have hparts : r.Partitions units := by
    obtain ⟨groups, standalone⟩ := r
    dsimp only at hgroups halone
    subst hgroups halone
    exact hp.covers.partitions hn
  refine ⟨hparts, hgroups ▸ hp.order, fun q hq hk => ?_⟩
  obtain ⟨hone, hm⟩ := hp.whole q (hgroups ▸ hq) hk
  rw [← hgroups] at hone
  refine ⟨hone, hm, ?_⟩
  have hlen := hparts.once.length_eq
  rw [hone, List.flatMap_singleton, hm, List.length_append] at hlen
  exact List.eq_nil_of_length_eq_zero (by omega)

/-- A base, its satellite and a unit of another name are taken apart. -/
theorem synthesize_partitions_satellite :
    let units : List AnalyzedUnit := [{ name := "Fire" }, { name := "Fire-Tick" }, { name := "Ice" }]
    let s : Searcher := ⟨{ (default : Vocabulary) with lifecycleSuffixes := ["Tick"] }, {}⟩
    (names units).Nodup ∧ s.settings.Numeric ∧ units.length < 2 ^ 63 ∧
      ∃ r, (s.synthesize units (.ofUnits units) .skillFile).outcome = .ok r ∧ r.Partitions units := by
  intro units s
  have hn : (names units).Nodup := by decide
  obtain ⟨hok, hall⟩ := synthesize_partitions s units hn (.ofUnits units) .skillFile
  obtain ⟨r, hr⟩ := hok DetectorSettings.numeric_usual (by decide)
  exact ⟨hn, DetectorSettings.numeric_usual, by decide, r, hr, (hall r hr).1⟩

end SkillAtlas
