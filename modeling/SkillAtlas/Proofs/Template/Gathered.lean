import SkillAtlas.Proofs.Report.Ranking
import SkillAtlas.Proofs.Template.Storage

/-!
# What the record of a group is gathered from

The record of a group speaks for its members: with the category of most of them, the hardest of their tiers and
the first cooldown that one declares. Its sections are those of the members, in order.
-/

namespace SkillAtlas

/-- Tiers rank in the order in which they are listed. -/
lemma Tier.rank_eq_idxOf (t : Tier) : t.rank = Tier.all.idxOf t := by
  cases t <;> rfl

namespace TemplateRecord

/-- The name occurs most, and before every other name that occurs as often. -/
structure Leads (names : List String) (n : String) : Prop where
  mem : n ∈ names
  most : ∀ m ∈ names, names.count m ≤ names.count n
  first : ∀ m ∈ names, m ≠ n → names.count m = names.count n → names.idxOf n < names.idxOf m

/-- Some unit is of the tier, and none is of a harder one. -/
structure IsHardest (units : List AnalyzedUnit) (t : Tier) : Prop where
  held : ∃ u ∈ units, u.tier = t
  above : ∀ u ∈ units, Tier.all.idxOf u.tier ≤ Tier.all.idxOf t

/-- The first value that is declared, or nothing if none is. -/
inductive FirstDeclared : List Value → Value → Prop where
  | none {cs : List Value} (h : ∀ c ∈ cs, c = .null) : FirstDeclared cs .null
  | declared {before after : List Value} {c : Value} (hbefore : ∀ b ∈ before, b = .null) (hc : c ≠ .null) :
      FirstDeclared (before ++ c :: after) c

/-- The first name of a ranking leads. -/
lemma leads_of_ranks {names : List String} {r : Ranked} {rest : List Ranked}
    (h : Ranks names (fun n => names.count n) (r :: rest)) : Leads names r.name := by
  obtain ⟨hmem, hcount⟩ := (h.mem_iff r).mp List.mem_cons_self
  have hbelow := (List.pairwise_cons.mp h.falling).1
  have hlater : ∀ m ∈ names, m ≠ r.name → names.count m < names.count r.name ∨
      names.count m = names.count r.name ∧ names.idxOf r.name < names.idxOf m := by
    intro m hm hne
    have hranked : (⟨m, names.count m⟩ : Ranked) ∈ r :: rest := (h.mem_iff _).mpr ⟨hm, rfl⟩
    rcases List.mem_cons.mp hranked with he | hrest
    · exact absurd (congrArg Ranked.name he) hne
    · rw [← hcount]
      exact hbelow _ hrest
  refine ⟨hmem, fun m hm => ?_, fun m hm hne hequal => ?_⟩
  · by_cases he : m = r.name
    · rw [he]
    · rcases hlater m hm he with hlt | ⟨hequal, -⟩
      · exact hlt.le
      · exact hequal.le
  · rcases hlater m hm hne with hlt | ⟨-, hfirst⟩
    · exact absurd hequal hlt.ne
    · exact hfirst

lemma exists_leading {units : List AnalyzedUnit} (h : units ≠ []) :
    ∃ c, commonCategory? units = some c ∧ Leads (units.map AnalyzedUnit.category) c := by
  have hranks := ranks_rankedNames (units.map AnalyzedUnit.category)
  rw [commonCategory?]
  cases hranking : rankedNames (units.map AnalyzedUnit.category) with
  | nil =>
    obtain ⟨u, rest, rfl⟩ := List.exists_cons_of_ne_nil h
    let r : Ranked := ⟨u.category, List.count u.category ((u :: rest).map AnalyzedUnit.category)⟩
    have hmem := (hranks.mem_iff r).mpr ⟨List.mem_map_of_mem List.mem_cons_self, rfl⟩
    rw [hranking] at hmem
    exact absurd hmem List.not_mem_nil
  | cons r rest =>
    rw [hranking] at hranks
    exact ⟨r.name, rfl, leads_of_ranks hranks⟩

lemma rank_harder (s t : Tier) : (harder s t).rank = max s.rank t.rank := by
  unfold harder
  split <;> omega

lemma harder_eq (s t : Tier) : harder s t = s ∨ harder s t = t := by
  unfold harder
  split
  · exact Or.inr rfl
  · exact Or.inl rfl

/-- Going through units from a tier on gives that tier or one of theirs, and none that is below. -/
lemma foldl_harder (units : List AnalyzedUnit) (t : Tier) :
    let hardest := units.foldl (fun s u => harder s u.tier) t
    (hardest = t ∨ ∃ u ∈ units, u.tier = hardest) ∧ t.rank ≤ hardest.rank ∧
      ∀ u ∈ units, u.tier.rank ≤ hardest.rank := by
  induction units generalizing t with
  | nil => simp
  | cons v rest ih =>
    obtain ⟨hheld, hstart, habove⟩ := ih (harder t v.tier)
    rw [rank_harder] at hstart
    simp only [List.foldl_cons, List.mem_cons, forall_eq_or_imp, exists_eq_or_imp]
    refine ⟨?_, (le_max_left _ _).trans hstart, (le_max_right _ _).trans hstart, habove⟩
    rcases hheld with hself | hlater
    · rcases harder_eq t v.tier with he | he
      · exact Or.inl (hself.trans he)
      · exact Or.inr (Or.inl (hself.trans he).symm)
    · exact Or.inr (Or.inr hlater)

lemma exists_hardest {units : List AnalyzedUnit} (h : units ≠ []) :
    ∃ t, hardest? units = some t ∧ IsHardest units t := by
  obtain ⟨u, rest, rfl⟩ := List.exists_cons_of_ne_nil h
  obtain ⟨hheld, hstart, habove⟩ := foldl_harder rest u.tier
  refine ⟨_, rfl, ?_, fun v hv => ?_⟩
  · rcases hheld with hself | ⟨v, hv, hvt⟩
    · exact ⟨u, List.mem_cons_self, hself.symm⟩
    · exact ⟨v, List.mem_cons_of_mem u hv, hvt⟩
  · rw [← Tier.rank_eq_idxOf, ← Tier.rank_eq_idxOf]
    rcases List.mem_cons.mp hv with rfl | hv
    · exact hstart
    · exact habove v hv

lemma firstDeclared_find? {p : Value → Bool} (hp : ∀ c, p c = true ↔ c ≠ .null) (cs : List Value) :
    FirstDeclared cs ((cs.find? p).getD .null) := by
  cases hfind : cs.find? p with
  | none =>
    refine .none fun c hc => ?_
    by_contra hne
    exact List.find?_eq_none.mp hfind c hc ((hp c).mpr hne)
  | some c =>
    obtain ⟨hc, before, after, rfl, hbefore⟩ := List.find?_eq_some_iff_append.mp hfind
    refine .declared (fun b hb => ?_) ((hp c).mp hc)
    by_contra hne
    simpa [(hp b).mpr hne] using hbefore b hb

lemma firstDeclared_firstCooldown (units : List AnalyzedUnit) :
    FirstDeclared (units.map AnalyzedUnit.cooldown) (firstCooldown units) :=
  firstDeclared_find? (fun c => by cases c <;> simp) _

/-- The record of a group with members has the category that leads among them, the hardest of their tiers and
the first cooldown that one declares, and holds a section for each, with its name and its lines. -/
theorem ofGroup_gathers (p : GroupProposal) (h : p.members ≠ []) :
    (∃ c, (ofGroup p).category = .str c ∧ Leads (p.members.map AnalyzedUnit.category) c) ∧
      (∃ t, (ofGroup p).difficulty = .str t.name ∧ IsHardest p.members t) ∧
      FirstDeclared (p.members.map AnalyzedUnit.cooldown) (ofGroup p).cooldown ∧
      (ofGroup p).sections = p.members.map (fun u => ⟨.str u.name, u.lineValues⟩) ∧
      (ofGroup p).allLines = p.members.flatMap AnalyzedUnit.lineValues := by
  obtain ⟨c, hc, hleads⟩ := exists_leading h
  obtain ⟨t, ht, hhardest⟩ := exists_hardest h
  have hmade : (ofGroup p).MadeOf p.members := .sections rfl rfl
  exact ⟨⟨c, by rw [ofGroup, hc]; rfl, hleads⟩, ⟨t, by rw [ofGroup, ht]; rfl, hhardest⟩,
    firstDeclared_firstCooldown p.members, rfl, hmade.allLines⟩

/-- Two categories are as common: the first member's leads. A cooldown of nothing is passed over, one of 0 is not. -/
theorem ofGroup_gathers_storm :
    let p : GroupProposal :=
      { kind := .callChain, rationale := "", suggestedName := "Storm", confidence := .null
        members := [
          { name := "Storm", category := "effects", lines := ["sound", "delay 5"] },
          { name := "Storm-Tick", category := "combat", tier := .advanced, cooldown := .int 0, lines := ["damage"] },
          { name := "Storm-Hit", category := "combat", tier := .intermediate, cooldown := .int 9 },
          { name := "Storm-End", category := "effects" }] }
    p.members ≠ [] ∧ (ofGroup p).category = .str "effects" ∧ (ofGroup p).difficulty = .str "advanced" ∧
      (ofGroup p).cooldown = .int 0 ∧
      (ofGroup p).allLines = [.str "sound", .str "delay 5", .str "damage"] ∧
      Leads (p.members.map AnalyzedUnit.category) "effects" ∧ IsHardest p.members .advanced := by
  intro p
  have hne : p.members ≠ [] := List.cons_ne_nil _ _
  obtain ⟨⟨c, hc, hleads⟩, ⟨t, ht, hhardest⟩, -, -, hlines⟩ := ofGroup_gathers p hne
  have hdifficulty : (ofGroup p).difficulty = .str "advanced" := rfl
  obtain rfl : c = "effects" := by
    by_contra hne
    obtain rfl : c = "combat" := by simpa [p, hne] using hleads.mem
    exact absurd (hleads.first "effects" (by decide) (by decide) (by decide)) (by decide)
  obtain rfl : t = .advanced := by
    have hname : t.name = "advanced" := Value.str.inj (ht.symm.trans hdifficulty)
    revert hname
    cases t <;> decide
  exact ⟨hne, hc, hdifficulty, rfl, hlines, hleads, hhardest⟩

end TemplateRecord

end SkillAtlas
