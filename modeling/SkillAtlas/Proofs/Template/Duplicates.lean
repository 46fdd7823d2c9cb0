import SkillAtlas.Proofs.Template.Points

/-!
# The records that a candidate is most like

Of the records above a threshold the first ones are found when they are ranked by their likeness, and records
of equal likeness stay in order. So as many are found as there may be, no record that is left out is more alike
than one that is found, and the likenesses do not depend on the order of the records.
-/

namespace SkillAtlas

section Descending

variable {α : Type}

/-- The items with the greatest keys first. -/
def descending (key : α → ℚ) (xs : List α) : List α :=
  xs.mergeSort fun x y => key y ≤ key x

variable (key : α → ℚ) (xs : List α)

lemma descending_perm : (descending key xs).Perm xs :=
  List.mergeSort_perm xs _

lemma descends_trans (x y z : α) (hxy : decide (key y ≤ key x) = true) (hyz : decide (key z ≤ key y) = true) :
    decide (key z ≤ key x) = true :=
  decide_eq_true ((of_decide_eq_true hyz).trans (of_decide_eq_true hxy))

lemma descends_total (x y : α) : (decide (key y ≤ key x) || decide (key x ≤ key y)) = true := by
  simpa using le_total (key y) (key x)

lemma pairwise_descending : (descending key xs).Pairwise fun x y => key y ≤ key x := by
  have hsorted := List.pairwise_mergeSort (descends_trans key) (descends_total key) xs
  exact hsorted.imp fun h => of_decide_eq_true h

/-- Items of one key stay in order. -/
lemma filter_descending (q : ℚ) :
    ((descending key xs).filter fun x => key x = q) = xs.filter fun x => key x = q := by
  have hequal : (xs.filter fun x => key x = q).Pairwise fun x y => decide (key y ≤ key x) = true := by
    refine List.pairwise_of_forall_mem_list fun x hx y hy => ?_
    have hkey := of_decide_eq_true (List.mem_filter.mp hx).2
    have hkey' := of_decide_eq_true (List.mem_filter.mp hy).2
    exact decide_eq_true (hkey'.trans hkey.symm).le
  have hsub : (xs.filter fun x => key x = q).Sublist (descending key xs) :=
    List.sublist_mergeSort (descends_trans key) (descends_total key) hequal List.filter_sublist
  have hkept := hsub.filter fun x => key x = q
  rw [List.filter_filter] at hkept
  simp only [Bool.and_self] at hkept
  exact (hkept.eq_of_length ((descending_perm key xs).filter _).length_eq.symm).symm

/-- The keys come in one order, whatever order the items have. -/
lemma map_descending {ys : List α} (h : ys.Perm xs) : (descending key ys).map key = (descending key xs).map key := by
  have hperm : (descending key ys).Perm (descending key xs) :=
    ((descending_perm key ys).trans h).trans (descending_perm key xs).symm
  have hys : ((descending key ys).map key).Pairwise fun p q => q ≤ p :=
    List.pairwise_map.mpr (pairwise_descending key ys)
  have hxs : ((descending key xs).map key).Pairwise fun p q => q ≤ p :=
    List.pairwise_map.mpr (pairwise_descending key xs)
  exact (hperm.map key).eq_of_pairwise (fun p q _ _ hpq hqp => le_antisymm hqp hpq) hys hxs

end Descending

/-- The number is below a fraction. -/
def Number.below : Number → ℚ → Bool
  | int n, q => (n : ℚ) < q
  | float x, q => match Decimal.ratOf? x with
    | some r => r < q
    | none => x < 0

/-- Likenesses are fractions, and compared as such. -/
def Scale.exact : Scale ℚ where
  toDivision := .exact
  exceeds threshold q := match threshold.number? with
    | some n => .ok (n.below q)
    | none => .error .wrongKind
  atMost p q := p ≤ q

namespace SimilaritySettings

variable {s : SimilaritySettings} {a b : TemplateRecord}

lemma exists_exact_lineScore (hs : s.Whole) (ha : a.Textual) (hb : b.Textual) :
    ∃ lines : Int, s.lineScoreBy .exact a b = .ok (.int lines) := by
  by_cases hnil : a.allLines = [] ∨ b.allLines = []
  · exact ⟨0, lineScoreBy_nil s .exact hnil⟩
  obtain ⟨hane, hbne⟩ := not_or.mp hnil
  have hlongest : 0 < max a.allLines.length b.allLines.length :=
    lt_max_of_lt_left (List.length_pos_of_ne_nil hane)
  have hquotient : Division.exact.quotient (.int (s.lineOverlap.amount * sharedCount a.allLines b.allLines))
      (.count (max a.allLines.length b.allLines.length)) = .ok _ :=
    if_neg (by omega)
  rw [lineScoreBy_eq hs ha hb hane hbne, hquotient]
  exact ⟨_, rfl⟩

/-- Divided exactly, two records have a likeness if something can be scored. -/
lemma exists_exact_likeness (hs : s.Whole) (hmax : 0 < s.maxPoints) (ha : a.Textual) (hb : b.Textual) :
    ∃ q, s.likenessBy .exact a b = .ok q := by
  obtain ⟨m, hm⟩ := ha.name
  obtain ⟨n, hn⟩ := hb.name
  obtain ⟨lines, hlines⟩ := exists_exact_lineScore hs ha hb
  rw [likenessBy_eq hs hm hn hlines]
  exact ⟨_, if_neg (by omega)⟩

end SimilaritySettings

namespace DuplicateMatch

/-- What is found of a candidate: of the records above a threshold as many as there may be, the most alike
first. -/
structure MostAlike (candidate : TemplateRecord) (likeness : TemplateRecord → ℚ) (threshold : Number) (limit : ℕ)
    (existing : List TemplateRecord) (found : List (DuplicateMatch ℚ)) : Prop where
  length_eq : found.length = min limit (existing.countP fun r => threshold.below (likeness r))
  genuine : ∀ m ∈ found, m.likeness = likeness m.record ∧
    SkillAtlas.differences candidate m.record = .ok m.differences
  above : ∀ m ∈ found, threshold.below m.likeness = true
  falling : found.Pairwise fun m n => n.likeness ≤ m.likeness
  /-- of the records of one likeness the first ones are found, in order -/
  inOrder : ∀ q, (found.filter fun m => m.likeness = q).map record <+: existing.filter fun r => likeness r = q
  /-- no record that is left out is more alike than one that is found -/
  leftOut : ∃ others : List TemplateRecord,
    (found.map record ++ others).Perm (existing.filter fun r => threshold.below (likeness r)) ∧
    ∀ r ∈ others, ∀ m ∈ found, likeness r ≤ m.likeness

section Found

variable (candidate : TemplateRecord) (likeness : TemplateRecord → ℚ) (threshold : Number)

/-- A record as a match. -/
def ofRecord (r : TemplateRecord) : DuplicateMatch ℚ :=
  ⟨r, likeness r, (SkillAtlas.differences candidate r).toOption.getD []⟩

/-- The records above the threshold as matches. -/
def matching (existing : List TemplateRecord) : List (DuplicateMatch ℚ) :=
  (existing.filter fun r => threshold.below (likeness r)).map (ofRecord candidate likeness)

variable {candidate likeness threshold} {existing : List TemplateRecord} {m : DuplicateMatch ℚ}

lemma mem_matching (h : m ∈ matching candidate likeness threshold existing) :
    m = ofRecord candidate likeness m.record ∧ threshold.below m.likeness = true := by
  obtain ⟨r, hr, rfl⟩ := List.mem_map.mp h
  exact ⟨rfl, (List.mem_filter.mp hr).2⟩

/-- Between records of texts the differences are told. -/
lemma differences_ofRecord (likeness : TemplateRecord → ℚ) {r : TemplateRecord} (hc : candidate.Textual) (hr : r.Textual) :
    SkillAtlas.differences candidate r = .ok (ofRecord candidate likeness r).differences := by
  obtain ⟨category, -, heq⟩ := hc.differences_eq hr
  rw [ofRecord, heq]
  rfl

lemma record_mem_of_matching (h : m ∈ matching candidate likeness threshold existing) : m.record ∈ existing := by
  obtain ⟨r, hr, rfl⟩ := List.mem_map.mp h
  exact (List.mem_filter.mp hr).1

lemma map_record_matching :
    (matching candidate likeness threshold existing).map record =
      existing.filter fun r => threshold.below (likeness r) := by
  rw [matching, List.map_map]
  exact List.map_id _

lemma filter_matching (q : ℚ) :
    ((matching candidate likeness threshold existing).filter fun m => m.likeness = q).map record <+:
      existing.filter fun r => likeness r = q := by
  have hsame : ((matching candidate likeness threshold existing).filter fun m => m.likeness = q).map record =
      existing.filter fun r => likeness r = q ∧ threshold.below q := by
    rw [matching, List.filter_map, List.map_map, List.filter_filter]
    refine (List.map_id _).trans (List.filter_congr fun r _ => ?_)
    rw [Bool.decide_and, Bool.decide_eq_true]
    by_cases hq : likeness r = q
    · simp [ofRecord, hq]
    · simp [ofRecord, hq]
  rw [hsame]
  cases hq : threshold.below q with
  | true => simp
  | false => simp

/-- The first matches, in the order of their likeness. -/
lemma mostAlike_take (hc : candidate.Textual) (likeness : TemplateRecord → ℚ) (threshold : Number) (limit : ℕ)
    (htextual : ∀ r ∈ existing, r.Textual) : MostAlike candidate likeness threshold limit existing
      ((descending DuplicateMatch.likeness (matching candidate likeness threshold existing)).take limit) := by
  let ms := matching candidate likeness threshold existing
  have hperm := descending_perm DuplicateMatch.likeness ms
  have hpairwise := pairwise_descending DuplicateMatch.likeness ms
  have hmem : ∀ m ∈ (descending DuplicateMatch.likeness ms).take limit, m ∈ ms := fun m hm =>
    hperm.mem_iff.mp (List.mem_of_mem_take hm)
  have hrecords : ms.map record = existing.filter fun r => threshold.below (likeness r) := map_record_matching
  refine ⟨?_, fun m hm => ?_, fun m hm => (mem_matching (hmem m hm)).2, ?_, ?_, ?_⟩
  · rw [List.length_take, hperm.length_eq, List.countP_eq_length_filter, ← hrecords, List.length_map]
  · have hgenuine := (mem_matching (hmem m hm)).1
    refine ⟨congrArg DuplicateMatch.likeness hgenuine, ?_⟩
    rw [differences_ofRecord likeness hc (htextual _ (record_mem_of_matching (hmem m hm))), ← hgenuine]
  · exact hpairwise.sublist (List.take_sublist _ _)
  · intro q
    have hfirst := ((List.take_prefix limit (descending DuplicateMatch.likeness ms)).filter
      fun m => m.likeness = q).map record
    rw [filter_descending] at hfirst
    exact hfirst.trans (filter_matching q)
  · refine ⟨((descending DuplicateMatch.likeness ms).drop limit).map record, ?_, ?_⟩
    · rw [← List.map_append, List.take_append_drop, ← hrecords]
      exact hperm.map record
    · intro r hr m hm
      obtain ⟨n, hn, rfl⟩ := List.mem_map.mp hr
      have hlike : n = ofRecord candidate likeness n.record :=
        (mem_matching (hperm.mem_iff.mp (List.mem_of_mem_drop hn))).1
      rw [← List.take_append_drop limit (descending DuplicateMatch.likeness ms)] at hpairwise
      have hle := (List.pairwise_append.mp hpairwise).2.2 m hm n hn
      rwa [hlike] at hle

end Found

section Exact

variable {s : SimilaritySettings} {candidate : TemplateRecord} {likeness : TemplateRecord → ℚ} {least : Number}
  {threshold limit : Value} {existing : List TemplateRecord} {most : ℕ}

lemma all_eq (hc : candidate.Textual) (ht : threshold.number? = some least)
    (htextual : ∀ r ∈ existing, r.Textual)
    (hlikeness : ∀ r ∈ existing, s.likenessBy .exact candidate r = .ok (likeness r)) :
    all s .exact threshold candidate existing = .ok (matching candidate likeness least existing) := by
  induction existing with
  | nil => rfl
  | cons r rest ih =>
    obtain ⟨hr, hrest⟩ := List.forall_mem_cons.mp hlikeness
    obtain ⟨hrtextual, hresttextual⟩ := List.forall_mem_cons.mp htextual
    have hexceeds : Scale.exact.exceeds threshold (likeness r) = .ok (least.below (likeness r)) := by
      simp only [Scale.exact, ht]
    have hmatch : between? s .exact threshold candidate r =
        .ok (if least.below (likeness r) then some (ofRecord candidate likeness r) else none) := by
      unfold between?
      rw [show Scale.exact.toDivision = .exact from rfl, hr]
      show (Scale.exact.exceeds threshold (likeness r)).bind _ = _
      rw [hexceeds, differences_ofRecord likeness hc hrtextual]
      cases least.below (likeness r) <;> rfl
    unfold all
    rw [hmatch, ih hresttextual hrest, matching, matching, List.filter_cons]
    cases least.below (likeness r) <;> rfl

/-- A limit that is not negative leaves so many items. -/
lemma upTo_eq_take {α : Type} (hl : limit.integer? = some (most : ℤ)) (items : List α) :
    Value.upTo limit items = .ok (items.take most) := by
  have htake : SkillAtlas.upTo (most : ℤ) items = items.take most := by
    rw [SkillAtlas.upTo, if_neg (by omega), Int.toNat_natCast]
  unfold Value.upTo
  split
  · simp [Value.integer?] at hl
  · rw [hl]
    exact congrArg Except.ok htake

lemma findBy_eq (hc : candidate.Textual) (ht : (orUsual s.duplicateThreshold threshold).number? = some least)
    (hl : (orUsual s.duplicateLimit limit).integer? = some (most : ℤ))
    (htextual : ∀ r ∈ existing, r.Textual)
    (hlikeness : ∀ r ∈ existing, s.likenessBy .exact candidate r = .ok (likeness r)) :
    (findBy s .exact candidate existing threshold limit).outcome =
      .ok ((descending DuplicateMatch.likeness (matching candidate likeness least existing)).take most) := by
  unfold findBy
  simp only [Journal.outcome_bind]
  show (all s .exact _ candidate existing).bind _ = _
  rw [all_eq hc ht htextual hlikeness]
  exact upTo_eq_take hl _

/-- Looking for the records that a candidate is most like, with exact likenesses. The records that are found
are the most alike of those above the threshold, and their likenesses do not depend on the order of the
records. -/
theorem findBy_exact (hs : s.Whole) (hmax : 0 < s.maxPoints) (hc : candidate.Textual)
    (ht : (orUsual s.duplicateThreshold threshold).number? = some least)
    (hl : (orUsual s.duplicateLimit limit).integer? = some (most : ℤ)) :
    ∃ likeness : TemplateRecord → ℚ,
      (∀ r : TemplateRecord, r.Textual → s.likenessBy .exact candidate r = .ok (likeness r)) ∧
      ∀ existing : List TemplateRecord, (∀ r ∈ existing, r.Textual) →
        ∃ found, (findBy s .exact candidate existing threshold limit).outcome = .ok found ∧
          MostAlike candidate likeness least most existing found ∧
          ∀ others : List TemplateRecord, others.Perm existing →
            ∃ again, (findBy s .exact candidate others threshold limit).outcome = .ok again ∧
              again.map DuplicateMatch.likeness = found.map DuplicateMatch.likeness := by
  have hexists : ∀ r : TemplateRecord, ∃ q, r.Textual → s.likenessBy .exact candidate r = .ok q := by
    intro r
    by_cases hr : r.Textual
    · obtain ⟨q, hq⟩ := SimilaritySettings.exists_exact_likeness hs hmax hc hr
      exact ⟨q, fun _ => hq⟩
    · exact ⟨0, fun h => absurd h hr⟩
  choose likeness hlikeness using hexists
  refine ⟨likeness, hlikeness, fun existing htextual => ?_⟩
  have hfound : ∀ records : List TemplateRecord, (∀ r ∈ records, r.Textual) →
      (findBy s .exact candidate records threshold limit).outcome =
        .ok ((descending DuplicateMatch.likeness (matching candidate likeness least records)).take most) :=
    fun records h => findBy_eq hc ht hl h fun r hr => hlikeness r (h r hr)
  refine ⟨_, hfound existing htextual, mostAlike_take hc likeness least most htextual,
    fun others hperm => ⟨_, hfound others fun r hr => htextual r (hperm.subset hr), ?_⟩⟩
  have hmatching : (matching candidate likeness least others).Perm (matching candidate likeness least existing) :=
    (hperm.filter _).map _
  rw [List.map_take, List.map_take, map_descending _ _ hmatching]

end Exact

/-- Of three records one is found if there may be one, and it is as like as any of them. -/
theorem findBy_exact_storms :
    let s : SimilaritySettings := {}
    let candidate : TemplateRecord := .plain "Storm" ["x", "y"]
    let existing : List TemplateRecord := [.plain "Storms" ["x"], .plain "Ox" [], .plain "Storm" ["y"]]
    s.Whole ∧ 0 < s.maxPoints ∧ candidate.Textual ∧
      (orUsual s.duplicateThreshold .null).number? = some (.float 0.5) ∧
      (orUsual s.duplicateLimit (.int 1)).integer? = some ((1 : ℕ) : ℤ) ∧ (∀ r ∈ existing, r.Textual) ∧
      ∃ likeness found, (∀ r ∈ existing, s.likenessBy .exact candidate r = .ok (likeness r)) ∧
        (findBy s .exact candidate existing .null (.int 1)).outcome = .ok found ∧
        MostAlike candidate likeness (.float 0.5) 1 existing found ∧ found.length = 1 := by
  intro s candidate existing
  have hmax : 0 < s.maxPoints := by decide
  have hc : candidate.Textual := TemplateRecord.textual_plain _ _
  have htextual : ∀ r ∈ existing, r.Textual := by simp [existing, TemplateRecord.textual_plain]
  have ht : (orUsual s.duplicateThreshold .null).number? = some (.float 0.5) := rfl
  have hl : (orUsual s.duplicateLimit (.int 1)).integer? = some ((1 : ℕ) : ℤ) := rfl
  obtain ⟨likeness, hlikeness, hall⟩ := findBy_exact SimilaritySettings.whole_usual hmax hc ht hl
  obtain ⟨found, hfound, hbest, -⟩ := hall existing htextual
  refine ⟨SimilaritySettings.whole_usual, hmax, hc, ht, hl, htextual, likeness, found,
    fun r hr => hlikeness r (htextual r hr), hfound, hbest, ?_⟩
  have hlike : (1 / 2 : ℚ) < likeness (.plain "Storm" ["y"]) := by
    have hcomputed : (match s.likenessBy .exact candidate (.plain "Storm" ["y"]) with
        | .ok q => decide (1 / 2 < q)
        | .error _ => false) = true := by decide +kernel
    rw [hlikeness _ (TemplateRecord.textual_plain _ _)] at hcomputed
    exact of_decide_eq_true hcomputed
  have hhalf : Decimal.ratOf? 0.5 = some (1 / 2) := by decide +kernel
  have hsome : 0 < existing.countP fun r => (Number.float 0.5).below (likeness r) := by
    refine List.countP_pos_iff.mpr ⟨.plain "Storm" ["y"], by simp [existing], ?_⟩
    simpa [Number.below, hhalf] using hlike
  rw [hbest.length_eq]
  omega

end DuplicateMatch

end SkillAtlas
