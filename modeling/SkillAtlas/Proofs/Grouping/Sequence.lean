import SkillAtlas.Proofs.Grouping.Search

/-!
# Searches in any order

The six searches may be called in any order and again and again, as long as they share one list of claimed
names. What one of them claims stays claimed, also when it fails on the way; so the families of all calls
are drawn from different units, and as long as no call fails the claimed names are those of their members.
-/

namespace SkillAtlas

open AnalyzedUnit (names)

section Claims

variable {units : List AnalyzedUnit} {claimed after : List String} {parts : List (List AnalyzedUnit)}

lemma Drawn.mono {members : List AnalyzedUnit} (hs : claimed ⊆ after) (h : Drawn units after members) :
    Drawn units claimed members :=
  ⟨h.two, h.distinct, h.known, fun u hu hc => h.free u hu (hs hc)⟩

/-- What is apart from many names is apart from fewer. -/
lemma Apart.mono (hs : claimed ⊆ after) (h : Apart units after parts) : Apart units claimed parts := by
  induction h generalizing claimed with
  | nil => exact .nil claimed
  | cons first others ih =>
    refine .cons (first.mono hs) (ih fun n hn => ?_)
    rcases List.mem_append.mp hn with hn | hn
    · exact List.mem_append_left _ (hs hn)
    · exact List.mem_append_right _ hn

lemma Apart.drawn (h : Apart units claimed parts) : ∀ members ∈ parts, Drawn units claimed members := by
  induction h with
  | nil => simp
  | cons first others ih =>
    refine List.forall_mem_cons.mpr ⟨first, fun members hm => ?_⟩
    exact (ih members hm).mono (List.subset_append_left _ _)

lemma Family.subset_propose (claimed : List String) (fs : List Family) :
    claimed ⊆ (Family.propose claimed fs).2 := by
  induction fs generalizing claimed with
  | nil => exact List.Subset.refl claimed
  | cons f rest ih =>
    have hf : claimed ⊆ claimed ++ names f.members := List.subset_append_left _ _
    unfold Family.propose
    dsimp only
    split
    · exact hf
    · exact List.Subset.trans hf (ih _)

/-- A search gives no name back, not even one that fails. -/
lemma Detection.subset_settle (d : Detection) (claimed : List String) :
    claimed ⊆ (d.settle claimed).2 := by
  unfold Detection.settle
  split
  · exact Family.subset_propose claimed _
  · exact List.Subset.refl claimed

end Claims

/-- The searches that share claimed names. -/
inductive Detector where
  | lifecycleFamilies
  | variantFamilies
  | documentPrefix
  | callChains
  | residualPrefixes
  | residualSuffixes
deriving DecidableEq, Repr

/-- The kind of the groups of a search. -/
def Detector.groupKind : Detector → GroupKind
  | lifecycleFamilies | residualSuffixes => .lifecycleSuffixes
  | variantFamilies => .mobVariants
  | documentPrefix => .documentPrefix
  | callChains => .callChain
  | residualPrefixes => .sharedPrefix

namespace Searcher

/-- What one search finds. -/
def detect (s : Searcher) (units : List AnalyzedUnit) (g : CallGraph) (k : Detector)
    (claimed : List String) : Detection :=
  match k with
  | .lifecycleFamilies => s.lifecycleFamilies units claimed
  | .variantFamilies => s.variantFamilies units claimed
  | .documentPrefix => s.documentPrefix units claimed
  | .callChains => s.callChains units g claimed
  | .residualPrefixes => s.residualPrefixes units claimed
  | .residualSuffixes => s.residualSuffixes units claimed

/-- What a sequence of searches answers, call by call, and the names that are claimed after it. -/
def inTurn (s : Searcher) (units : List AnalyzedUnit) (g : CallGraph) :
    List Detector → List String → List (Except Fault (List GroupProposal)) × List String
  | [], claimed => ([], claimed)
  | k :: rest, claimed =>
    let (answer, after) := (s.detect units g k claimed).settle claimed
    let (answers, last) := s.inTurn units g rest after
    (answer :: answers, last)

/-- The groups of the calls that did not fail. -/
def emitted (answers : List (Except Fault (List GroupProposal))) : List GroupProposal :=
  answers.flatMap fun answer => answer.toOption.getD []

variable {s : Searcher} {units : List AnalyzedUnit} {g : CallGraph}

lemma detect_sound (s : Searcher) (hn : (names units).Nodup) (g : CallGraph) (k : Detector)
    (claimed : List String) :
    (s.detect units g k claimed).Sound units claimed k.groupKind (s.Ready units) := by
  cases k with
  | lifecycleFamilies => exact s.lifecycleFamilies_sound units claimed
  | variantFamilies => exact s.variantFamilies_sound units claimed
  | documentPrefix => exact s.documentPrefix_sound hn claimed
  | callChains => exact s.callChains_sound units g claimed
  | residualPrefixes => exact s.residualPrefixes_sound units claimed
  | residualSuffixes => exact s.residualSuffixes_sound hn claimed

/-- What a sequence of searches keeps to: its groups are apart and claimed, and nothing else is claimed
unless a call fails. -/
structure Claims (units : List AnalyzedUnit) (claimed : List String)
    (r : List (Except Fault (List GroupProposal)) × List String) : Prop where
  apart : Apart units claimed (GroupProposal.parts (emitted r.1))
  kept : claimed ++ names (GroupProposal.parts (emitted r.1)).flatten ⊆ r.2
  exact : (∀ answer ∈ r.1, ∃ ps, answer = .ok ps) →
    r.2 = claimed ++ names (GroupProposal.parts (emitted r.1)).flatten

/-- One more call in front of a sequence. -/
lemma Claims.cons {d : Detection} {k : GroupKind} {ready : Prop} {claimed : List String}
    {r : List (Except Fault (List GroupProposal)) × List String} (hd : d.Sound units claimed k ready)
    (hr : Claims units (d.settle claimed).2 r) :
    Claims units claimed ((d.settle claimed).1 :: r.1, r.2) := by
  have hsub := d.subset_settle claimed
  cases hs : d.settle claimed with
  | mk answer after =>
    rw [hs] at hr hsub
    cases answer with
    | error e =>
      have hgroups : emitted (.error e :: r.1) = emitted r.1 := rfl
      constructor
      · rw [hgroups]
        exact hr.apart.mono hsub
      · rw [hgroups]
        intro n hn
        apply hr.kept
        rcases List.mem_append.mp hn with hn | hn
        · exact List.mem_append_left _ (hsub hn)
        · exact List.mem_append_right _ hn
      · intro hall
        obtain ⟨ps, hps⟩ := hall _ List.mem_cons_self
        simp at hps
    | ok ps =>
      have hset : Settled units claimed k ps after := hd.settled hs
      have hparts : GroupProposal.parts (emitted (.ok ps :: r.1)) =
          GroupProposal.parts ps ++ GroupProposal.parts (emitted r.1) := by
        have he : emitted (.ok ps :: r.1) = ps ++ emitted r.1 := rfl
        rw [he]
        exact List.map_append
      have hnames : claimed ++ names (GroupProposal.parts (emitted (.ok ps :: r.1))).flatten =
          after ++ names (GroupProposal.parts (emitted r.1)).flatten := by
        rw [hparts, hset.claims, List.flatten_append, List.append_assoc]
        exact congrArg (claimed ++ ·) List.map_append
      constructor
      · rw [hparts]
        refine hset.apart.append ?_
        rw [← hset.claims]
        exact hr.apart
      · rw [hnames]
        exact hr.kept
      · intro hall
        rw [hnames]
        exact hr.exact fun answer ha => hall answer (List.mem_cons_of_mem _ ha)

lemma inTurn_claims (s : Searcher) (hn : (names units).Nodup) (g : CallGraph) (order : List Detector)
    (claimed : List String) : Claims units claimed (s.inTurn units g order claimed) := by
  induction order generalizing claimed with
  | nil => exact ⟨.nil claimed, by simp [inTurn, emitted, GroupProposal.parts, names], by
      simp [inTurn, emitted, GroupProposal.parts, names]⟩
  | cons k rest ih => exact .cons (s.detect_sound hn g k claimed) (ih _)

lemma inTurn_answers (hn : (names units).Nodup) (hr : s.Ready units) (g : CallGraph)
    (order : List Detector) (claimed : List String) :
    ∀ answer ∈ (s.inTurn units g order claimed).1, ∃ ps, answer = .ok ps := by
  induction order generalizing claimed with
  | nil => simp [inTurn]
  | cons k rest ih =>
    obtain ⟨ps, after, hs⟩ := (s.detect_sound hn g k claimed).settle_eq_ok hr
    exact List.forall_mem_cons.mpr ⟨⟨ps, congrArg Prod.fst hs⟩, ih _⟩

/-- Whatever the order of the searches, and however often each is called: a group has two members at
least, of different names, that are units and were free at the start; no two members of all groups share a
name; and the names claimed in the end are the initial ones and those of all members, as long as no call
fails. With settings that are numbers none does. -/
theorem inTurn_hands_out_once (s : Searcher) (units : List AnalyzedUnit) (hn : (names units).Nodup)
    (g : CallGraph) (order : List Detector) (claimed : List String) :
    let answers := (s.inTurn units g order claimed).1
    let groups := emitted answers
    (∀ p ∈ groups, 2 ≤ p.members.length ∧ p.memberNames.Nodup ∧
        ∀ u ∈ p.members, u ∈ units ∧ u.name ∉ claimed) ∧
      (groups.flatMap GroupProposal.memberNames).Nodup ∧
      claimed ++ groups.flatMap GroupProposal.memberNames ⊆ (s.inTurn units g order claimed).2 ∧
      ((∀ answer ∈ answers, ∃ ps, answer = .ok ps) →
        (s.inTurn units g order claimed).2 = claimed ++ groups.flatMap GroupProposal.memberNames) ∧
      (s.settings.Numeric → units.length < 2 ^ 63 → ∀ answer ∈ answers, ∃ ps, answer = .ok ps) := by
  intro answers groups
  have hc := s.inTurn_claims hn g order claimed
  have hflat : groups.flatMap GroupProposal.memberNames = names (GroupProposal.parts groups).flatten := by
    simp only [GroupProposal.parts, names, List.map_flatten, List.map_map, List.flatMap_def]
    rfl
  refine ⟨fun p hp => ?_, ?_, ?_, fun hall => ?_, fun hs hl => ?_⟩
  · have hd := hc.apart.drawn p.members (List.mem_map_of_mem hp)
    exact ⟨hd.two, hd.distinct, fun u hu => ⟨hd.known u hu, hd.free u hu⟩⟩
  · rw [hflat]
    exact hc.apart.nodup_names
  · rw [hflat]
    exact hc.kept
  · rw [hflat]
    exact hc.exact hall
  · exact inTurn_answers hn ⟨hs, hl⟩ g order claimed

/-- The search for lifecycle families is called twice, and a second search joins it: a base and its
satellite are handed out once, and a unit that was claimed before stays out. -/
theorem inTurn_hands_out_once_satellite :
    let units : List AnalyzedUnit :=
      [{ name := "Fire" }, { name := "Fire-Tick" }, { name := "Fire-Hit" }, { name := "Ice" }]
    let s : Searcher := ⟨{ (default : Vocabulary) with lifecycleSuffixes := ["Tick", "Hit"] }, {}⟩
    let r := s.inTurn units (.ofUnits units)
      [.callChains, .lifecycleFamilies, .lifecycleFamilies, .residualPrefixes] ["Fire-Hit"]
    (names units).Nodup ∧ s.settings.Numeric ∧ units.length < 2 ^ 63 ∧
      ((emitted r.1).flatMap GroupProposal.memberNames).Nodup ∧
      r.2 = ["Fire-Hit"] ++ (emitted r.1).flatMap GroupProposal.memberNames ∧
      r.2 = ["Fire-Hit", "Fire", "Fire-Tick"] := by
  intro units s r
  have hn : (names units).Nodup := by decide
  obtain ⟨-, hnodup, -, hexact, hanswers⟩ := inTurn_hands_out_once s units hn (.ofUnits units)
    [.callChains, .lifecycleFamilies, .lifecycleFamilies, .residualPrefixes] ["Fire-Hit"]
  have hs : s.settings.Numeric := DetectorSettings.numeric_usual
  have hl : units.length < 2 ^ 63 := by decide
  exact ⟨hn, hs, hl, hnodup, hexact (hanswers hs hl), by decide +kernel⟩

end Searcher

end SkillAtlas
