import SkillAtlas.Proofs.Text.Joined

/-!
# Small letters and capitals of letters

A small letter is its own small letter, and a capital is its own capital: no run of a case table starts where
another one ends. So taking small letters twice is taking them once, for letters of every script. Blanks and the
marks that join words have no case, and no letter becomes one of them.
-/

namespace SkillAtlas.Text

namespace CaseRun

/-- The code point that the run gives for another one. -/
def image (r : CaseRun) (n : Nat) : Nat :=
  (n + r.shift).toNat

/-- All images lie below the range or above it. -/
def avoids (r : CaseRun) (lo hi : Nat) : Bool :=
  (r.image r.last).blt lo || hi.blt (r.image r.first)

/-- No image of the first run is a code point of the second one: the images lie below it or above it, or both
runs hold every second code point and do not meet. -/
def leaves (r q : CaseRun) : Bool :=
  r.avoids q.first q.last ||
    (q.step == 2 && (r.step == 2 || r.first == r.last) && Nat.blt 0 (r.image r.first) &&
      (r.image r.first + q.first) % 2 == 1)

/-- All images lie outside ASCII, but for single letters that are listed, and none is one of the `keys`. -/
def staysClear (ascii keys : List Nat) (r : CaseRun) : Bool :=
  (Nat.ble 0x80 (r.image r.first) || r.first == r.last && ascii.contains (r.image r.first)) &&
    keys.all fun k => r.avoids k k

/-- The run neither starts nor ends in the range. -/
def apartFrom (range : Nat × Nat) (r : CaseRun) : Bool :=
  (r.last.blt range.1 || range.2.blt r.first) && r.avoids range.1 range.2

variable {r q : CaseRun} {n : Nat}

lemma covers_iff : r.covers n = true ↔ r.first ≤ n ∧ n ≤ r.last ∧ (n - r.first) % r.step = 0 := by
  simp [covers, and_assoc]

lemma image_between (h : r.covers n = true) :
    r.image r.first ≤ r.image n ∧ r.image n ≤ r.image r.last := by
  obtain ⟨hfirst, hlast, -⟩ := covers_iff.mp h
  unfold image
  omega

lemma image_of_avoids {lo hi : Nat} (havoids : r.avoids lo hi = true) (h : r.covers n = true) :
    r.image n < lo ∨ hi < r.image n := by
  obtain ⟨hlow, hhigh⟩ := image_between h
  rw [avoids, Bool.or_eq_true, Nat.blt_eq, Nat.blt_eq] at havoids
  omega

lemma not_covers_image (hleaves : r.leaves q = true) (h : r.covers n = true) :
    q.covers (r.image n) = false := by
  rw [Bool.eq_false_iff]
  intro hq
  obtain ⟨hqfirst, hqlast, hqstep⟩ := covers_iff.mp hq
  rw [leaves, Bool.or_eq_true] at hleaves
  -- where the runs overlap, images and code points of the second run differ in parity
  rcases hleaves with havoids | hparity
  · have hoff := image_of_avoids havoids h
    omega
  · simp only [Bool.and_eq_true, Bool.or_eq_true, beq_iff_eq, Nat.blt_eq] at hparity
    obtain ⟨⟨⟨hsecond, hboth⟩, hpos⟩, hodd⟩ := hparity
    obtain ⟨hfirst, hlast, hstep⟩ := covers_iff.mp h
    rw [hsecond] at hqstep
    unfold image at hpos hodd hqfirst hqstep
    rcases hboth with hboth | hpoint
    · rw [hboth] at hstep
      omega
    · omega

lemma image_of_staysClear {ascii keys : List Nat} (hclear : r.staysClear ascii keys = true)
    (h : r.covers n = true) : (0x80 ≤ r.image n ∨ r.image n ∈ ascii) ∧ r.image n ∉ keys := by
  rw [staysClear, Bool.and_eq_true, Bool.or_eq_true, Bool.and_eq_true, Nat.ble_eq, beq_iff_eq,
    List.contains_iff_mem] at hclear
  obtain ⟨hlow, hhigh⟩ := image_between h
  constructor
  · refine hclear.1.imp (fun hfirst => hfirst.trans hlow) fun ⟨hpoint, hlisted⟩ => ?_
    rw [← hpoint] at hhigh
    rwa [Nat.le_antisymm hhigh hlow]
  · intro hkey
    have hoff := image_of_avoids (List.all_eq_true.mp hclear.2 _ hkey) h
    omega

end CaseRun

section Tables

variable {runs : Array CaseRun} {r : CaseRun} {n : Nat}

/-- Runs held in a list can be looked through by evaluation. -/
lemma mapCase_eq (runs : Array CaseRun) (n : Nat) :
    mapCase runs n = ((runs.toList.find? (·.covers n)).map fun r => r.image n).getD n := by
  rw [mapCase, ← Array.find?_toList]
  cases runs.toList.find? (·.covers n) <;> rfl

/-- A code point is kept or mapped by one of the runs. -/
lemma mapCase_cases (runs : Array CaseRun) (n : Nat) :
    mapCase runs n = n ∨ ∃ r ∈ runs, r.covers n = true ∧ mapCase runs n = r.image n := by
  rw [mapCase]
  cases hfind : runs.find? (·.covers n) with
  | none => exact Or.inl rfl
  | some r => exact Or.inr ⟨r, Array.mem_of_find?_eq_some hfind, by simpa using Array.find?_some hfind, rfl⟩

/-- A code point that a run gives is kept. -/
lemma mapCase_image (hleaves : ∀ q ∈ runs, r.leaves q = true) (h : r.covers n = true) :
    mapCase runs (r.image n) = r.image n := by
  have hnone : runs.find? (·.covers (r.image n)) = none := by
    refine Array.find?_eq_none.mpr fun q hq => ?_
    rw [CaseRun.not_covers_image (hleaves q hq) h]
    exact Bool.false_ne_true
  rw [mapCase, hnone]

/-- A range that no run touches is kept, and nothing else comes to lie in it. -/
lemma mapCase_of_apartFrom {range : Nat × Nat} (hapart : ∀ r ∈ runs, r.apartFrom range = true) :
    (range.1 ≤ n ∧ n ≤ range.2 → mapCase runs n = n) ∧
      (range.1 ≤ mapCase runs n ∧ mapCase runs n ≤ range.2 → mapCase runs n = n) := by
  rcases mapCase_cases runs n with hself | ⟨r, hr, hcovers, himage⟩
  · exact ⟨fun _ => hself, fun _ => hself⟩
  · have hoff := hapart r hr
    rw [CaseRun.apartFrom, Bool.and_eq_true, Bool.or_eq_true, Nat.blt_eq, Nat.blt_eq] at hoff
    have hover := CaseRun.image_of_avoids hoff.2 hcovers
    obtain ⟨hfirst, hlast, -⟩ := CaseRun.covers_iff.mp hcovers
    constructor
    · rintro ⟨hlow, hhigh⟩
      omega
    · rintro ⟨hlow, hhigh⟩
      omega

/-- A number that is no code point stands for the character 0. -/
lemma toNat_ofNat_or (n : Nat) : (Char.ofNat n).toNat = n ∨ Char.ofNat n = '\x00' := by
  by_cases hvalid : n.isValidChar
  · refine Or.inl ?_
    rw [Char.ofNat, dif_pos hvalid]
    rfl
  · refine Or.inr ?_
    rw [Char.ofNat, dif_neg hvalid]
    rfl

end Tables

section Small

/-- Small letters that are given otherwise than by a run that ends outside ASCII. -/
def specialLetters : List Char :=
  ['i', '\u0307', 'σ', 'ς', '\x00', 'k']

lemma smallOf_special : (specialLetters.all fun c => smallOf c == [c]) = true ∧ smallOf 'Σ' ≠ ['Σ'] := by
  simp only [smallOf, mapCase_eq]
  decide +kernel

lemma smallOf_of_special {c : Char} (h : c ∈ specialLetters) : smallOf c = [c] :=
  eq_of_beq (List.all_eq_true.mp smallOf_special.1 c h)

/-- The sign of Kelvin gives a `k`, and a capital I with a dot is given by no run. -/
lemma leaves_smallRuns {r : CaseRun} (hr : r ∈ smallRuns) :
    r.staysClear [0x6B] [0x130] = true ∧ ∀ q ∈ smallRuns, r.leaves q = true := by
  have hall : (smallRuns.toList.all fun r => r.staysClear [0x6B] [0x130] && smallRuns.toList.all r.leaves) =
      true := by
    decide +kernel
  have hrun := Bool.and_eq_true_iff.mp (List.all_eq_true.mp hall r (Array.mem_toList_iff.mpr hr))
  exact ⟨hrun.1, fun q hq => List.all_eq_true.mp hrun.2 q (Array.mem_toList_iff.mpr hq)⟩

lemma smallOf_beyond {c : Char} (hc : ¬c.toNat < 128) (hdot : c ≠ '\u0130') :
    smallOf c = [Char.ofNat (mapCase smallRuns c.toNat)] := by
  rw [smallOf, if_neg hc, if_neg (by simpa using hdot)]

/-- The image of a run is its own small letter. -/
lemma smallOf_image {r : CaseRun} {n : Nat} (hr : r ∈ smallRuns) (h : r.covers n = true) :
    smallOf (Char.ofNat (r.image n)) = [Char.ofNat (r.image n)] := by
  obtain ⟨hclear, hleaves⟩ := leaves_smallRuns hr
  obtain ⟨houtside, hdot⟩ := CaseRun.image_of_staysClear hclear h
  rcases toNat_ofNat_or (r.image n) with hnat | hzero
  · rcases houtside with houtside | hkelvin
    · rw [smallOf_beyond (by omega), hnat, mapCase_image hleaves h]
      intro he
      have hcode : (Char.ofNat (r.image n)).toNat = 0x130 := congrArg Char.toNat he
      exact hdot (List.mem_singleton.mpr (hnat.symm.trans hcode))
    · rw [List.mem_singleton.mp hkelvin]
      exact smallOf_of_special (by decide)
  · rw [hzero]
    exact smallOf_of_special (by decide)

/-- A small letter is its own small letter. -/
lemma smallOf_of_mem_smallOf {c d : Char} (h : d ∈ smallOf c) : smallOf d = [d] := by
  by_cases hc : c.toNat < 128
  · rw [smallOf, if_pos hc, List.mem_singleton] at h
    subst h
    rw [smallOf, if_pos (toLower_ascii hc), toLower_toLower hc]
  by_cases hdot : c = '\u0130'
  · rw [hdot] at h
    have hmark : d ∈ ['i', '\u0307'] := h
    exact smallOf_of_special (List.mem_append_left ['σ', 'ς', '\x00', 'k'] hmark)
  rw [smallOf_beyond hc hdot, List.mem_singleton] at h
  rcases mapCase_cases smallRuns c.toNat with hself | ⟨r, hr, hcovers, himage⟩
  · rw [hself, Char.ofNat_toNat] at h
    rw [h, smallOf_beyond hc hdot, hself, Char.ofNat_toNat]
  · rw [h, himage]
    exact smallOf_image hr hcovers

lemma smallOf_of_mem_lowerAfter {before cs : List Char} {d : Char} (h : d ∈ lowerAfter before cs) :
    smallOf d = [d] := by
  induction cs generalizing before with
  | nil => simp [lowerAfter] at h
  | cons c rest ih =>
    rw [lowerAfter] at h
    split at h
    · rcases List.mem_cons.mp h with rfl | h
      · split
        · exact smallOf_of_special (by decide)
        · exact smallOf_of_special (by decide)
      · exact ih h
    · rcases List.mem_append.mp h with h | h
      · exact smallOf_of_mem_smallOf h
      · exact ih h

lemma ne_sigma_of_smallOf {c : Char} (h : smallOf c = [c]) : (c == 'Σ') = false := by
  refine beq_eq_false_iff_ne.mpr ?_
  rintro rfl
  exact smallOf_special.2 h

/-- A text of small letters is kept. -/
lemma lowerAfter_eq_self {cs : List Char} (h : ∀ c ∈ cs, smallOf c = [c]) (before : List Char) :
    lowerAfter before cs = cs := by
  induction cs generalizing before with
  | nil => rfl
  | cons c rest ih =>
    obtain ⟨hc, hrest⟩ := List.forall_mem_cons.mp h
    rw [lowerAfter, ne_sigma_of_smallOf hc, if_neg Bool.false_ne_true, hc, ih hrest, List.singleton_append]

lemma lowerChars_lowerChars (cs : List Char) : lowerChars (lowerChars cs) = lowerChars cs :=
  lowerAfter_eq_self (fun _ hc => smallOf_of_mem_lowerAfter hc) []

lemma lower_lower (s : String) : lower (lower s) = lower s := by
  rw [lower, toList_lower, lowerChars_lowerChars]
  rfl

end Small

section Capitals

lemma longCapitals_kept {entry : Nat × List Nat} (h : entry ∈ longCapitals) :
    entry.2 ≠ [] ∧ ∀ n ∈ entry.2, capitalOf (Char.ofNat n) = [Char.ofNat n] := by
  have hall : (longCapitals.toList.all fun entry => !entry.2.isEmpty && entry.2.all fun n =>
      capitalOf (Char.ofNat n) == [Char.ofNat n]) = true := by
    simp only [capitalOf, mapCase_eq, ← Array.find?_toList]
    decide +kernel
  have hentry := Bool.and_eq_true_iff.mp (List.all_eq_true.mp hall entry (Array.mem_toList_iff.mpr h))
  exact ⟨by simpa using hentry.1, fun n hn => eq_of_beq (List.all_eq_true.mp hentry.2 n hn)⟩

/-- The letter i without a dot gives an `I`, and the long s gives an `S`. -/
lemma leaves_capitalRuns {r : CaseRun} (hr : r ∈ capitalRuns) :
    r.staysClear [0x49, 0x53] (longCapitals.toList.map Prod.fst) = true ∧
      ∀ q ∈ capitalRuns, r.leaves q = true := by
  have hall : (capitalRuns.toList.all fun r =>
      r.staysClear [0x49, 0x53] (longCapitals.toList.map Prod.fst) && capitalRuns.toList.all r.leaves) =
      true := by
    decide +kernel
  have hrun := Bool.and_eq_true_iff.mp (List.all_eq_true.mp hall r (Array.mem_toList_iff.mpr hr))
  exact ⟨hrun.1, fun q hq => List.all_eq_true.mp hrun.2 q (Array.mem_toList_iff.mpr hq)⟩

lemma capitalOf_beyond {c : Char} (hc : ¬c.toNat < 128) :
    (∃ entry ∈ longCapitals, entry.1 = c.toNat ∧ capitalOf c = entry.2.map Char.ofNat) ∨
      capitalOf c = [Char.ofNat (mapCase capitalRuns c.toNat)] := by
  rw [capitalOf, if_neg hc]
  cases hfind : longCapitals.find? (·.1 == c.toNat) with
  | none => exact Or.inr rfl
  | some entry =>
    exact Or.inl ⟨entry, Array.mem_of_find?_eq_some hfind, by simpa using Array.find?_some hfind, rfl⟩

lemma capitalOf_run {c : Char} (hc : ¬c.toNat < 128) (hlong : c.toNat ∉ longCapitals.toList.map Prod.fst) :
    capitalOf c = [Char.ofNat (mapCase capitalRuns c.toNat)] := by
  rcases capitalOf_beyond hc with ⟨entry, hentry, hkey, -⟩ | hrun
  · exact absurd (List.mem_map.mpr ⟨entry, Array.mem_toList_iff.mpr hentry, hkey⟩) hlong
  · exact hrun

lemma capitalOf_ascii {c : Char} (hc : c.toNat < 128) : capitalOf c = [c.toUpper] :=
  if_pos hc

lemma capitalOf_ne_nil (c : Char) : capitalOf c ≠ [] := by
  by_cases hc : c.toNat < 128
  · simp [capitalOf_ascii hc]
  · rcases capitalOf_beyond hc with ⟨entry, hentry, -, hforms⟩ | hrun
    · simpa [hforms] using (longCapitals_kept hentry).1
    · simp [hrun]

/-- The capital of an ASCII letter is its own capital. -/
lemma capitalOf_toUpper {c : Char} (hc : c.toNat < 128) : capitalOf c.toUpper = [c.toUpper] :=
  forall_ascii (P := fun c => capitalOf c.toUpper = [c.toUpper]) (by
    have hkept : ∀ n < 128, (Char.ofNat n).toUpper.toNat < 128 ∧
        (Char.ofNat n).toUpper.toUpper = (Char.ofNat n).toUpper := by
      decide +kernel
    intro n hn
    rw [capitalOf_ascii (hkept n hn).1, (hkept n hn).2]) hc

/-- The image of a run is its own capital. -/
lemma capitalOf_image {r : CaseRun} {n : Nat} (hr : r ∈ capitalRuns) (h : r.covers n = true) :
    capitalOf (Char.ofNat (r.image n)) = [Char.ofNat (r.image n)] := by
  obtain ⟨hclear, hleaves⟩ := leaves_capitalRuns hr
  obtain ⟨houtside, hlong⟩ := CaseRun.image_of_staysClear hclear h
  rcases toNat_ofNat_or (r.image n) with hnat | hzero
  · rcases houtside with houtside | hascii
    · rw [capitalOf_run (by omega) (by rwa [hnat]), hnat, mapCase_image hleaves h]
    · have hlisted : r.image n = 0x49 ∨ r.image n = 0x53 := by simpa using hascii
      rcases hlisted with he | he <;> rw [he] <;> rfl
  · rw [hzero]
    rfl

/-- A capital is its own capital. -/
lemma capitalOf_of_mem_capitalOf {c d : Char} (h : d ∈ capitalOf c) : capitalOf d = [d] := by
  by_cases hc : c.toNat < 128
  · rw [capitalOf_ascii hc, List.mem_singleton] at h
    rw [h, capitalOf_toUpper hc]
  rcases capitalOf_beyond hc with ⟨entry, hentry, -, hforms⟩ | hrun
  · rw [hforms, List.mem_map] at h
    obtain ⟨n, hn, rfl⟩ := h
    exact (longCapitals_kept hentry).2 n hn
  · have hd : d = Char.ofNat (mapCase capitalRuns c.toNat) := by rwa [hrun, List.mem_singleton] at h
    rcases mapCase_cases capitalRuns c.toNat with hself | ⟨r, hr, hcovers, himage⟩
    · rw [hself, Char.ofNat_toNat] at hd
      rw [hd, hrun, hself, Char.ofNat_toNat]
    · rw [hd, himage]
      exact capitalOf_image hr hcovers

end Capitals

section Gaps

/-- Blanks and the marks that join words: the dash and the underscore. -/
def gap : CharSet :=
  ⟨#[(0x2D, 0x2D), (0x5F, 0x5F)] ++ blank.ranges⟩

variable {c d : Char}

lemma contains_gap (c : Char) : gap.contains c = (c == '-' || c == '_' || isBlank c) := by
  have hcode : ∀ m : Char, (m.toNat.ble c.toNat && c.toNat.ble m.toNat) = (c == m) := by
    intro m
    rw [Bool.eq_iff_iff, Bool.and_eq_true, Nat.ble_eq, Nat.ble_eq, beq_iff_eq, ← Char.toNat_inj]
    omega
  rw [isBlank, CharSet.contains_eq_any, CharSet.contains_eq_any, gap, Array.toList_append, List.any_append,
    ← hcode '-', ← hcode '_']
  simp

lemma isBlank_of_not_gap (h : gap.contains c = false) : isBlank c = false := by
  rw [contains_gap, Bool.or_eq_false_iff] at h
  exact h.2

lemma gap_of_isBlank (h : isBlank c = true) : gap.contains c = true := by
  simp [contains_gap, h]

lemma gap_runs {range : Nat × Nat} (h : range ∈ gap.ranges) :
    (∀ r ∈ smallRuns, r.apartFrom range = true) ∧ (∀ r ∈ capitalRuns, r.apartFrom range = true) ∧
      ∀ entry ∈ longCapitals, ∀ n ∈ entry.1 :: entry.2, ¬(range.1 ≤ n ∧ n ≤ range.2) := by
  have hall : (gap.ranges.toList.all fun range => smallRuns.toList.all (CaseRun.apartFrom range) &&
      capitalRuns.toList.all (CaseRun.apartFrom range) &&
        longCapitals.toList.all fun entry => (entry.1 :: entry.2).all fun n =>
          !(range.1.ble n && n.ble range.2)) = true := by
    decide +kernel
  have hrange := List.all_eq_true.mp hall range (Array.mem_toList_iff.mpr h)
  rw [Bool.and_eq_true, Bool.and_eq_true, List.all_eq_true, List.all_eq_true, List.all_eq_true] at hrange
  obtain ⟨⟨hsmall, hcapital⟩, hlong⟩ := hrange
  refine ⟨fun r hr => hsmall r (Array.mem_toList_iff.mpr hr),
    fun r hr => hcapital r (Array.mem_toList_iff.mpr hr), fun entry hentry n hn ⟨hlow, hhigh⟩ => ?_⟩
  have houtside := List.all_eq_true.mp (hlong entry (Array.mem_toList_iff.mpr hentry)) n hn
  rw [Nat.ble_eq.mpr hlow, Nat.ble_eq.mpr hhigh] at houtside
  exact Bool.false_ne_true houtside

/-- A table whose runs stay apart from the gaps keeps them, and makes no other ones. -/
lemma gap_mapCase {runs : Array CaseRun} (h : ∀ range ∈ gap.ranges, ∀ r ∈ runs, r.apartFrom range = true)
    (c : Char) : (gap.contains c = true → mapCase runs c.toNat = c.toNat) ∧
      gap.contains (Char.ofNat (mapCase runs c.toNat)) = gap.contains c := by
  have hkept : gap.contains c = true → mapCase runs c.toNat = c.toNat := by
    intro hc
    obtain ⟨range, hrange, hin⟩ := CharSet.contains_iff.mp hc
    exact (mapCase_of_apartFrom (h range hrange)).1 hin
  refine ⟨hkept, Bool.eq_iff_iff.mpr ⟨fun hd => ?_, fun hc => by rwa [hkept hc, Char.ofNat_toNat]⟩⟩
  rcases toNat_ofNat_or (mapCase runs c.toNat) with hnat | hzero
  · obtain ⟨range, hrange, hin⟩ := CharSet.contains_iff.mp hd
    rw [hnat] at hin
    have hself := (mapCase_of_apartFrom (h range hrange)).2 hin
    rwa [hself, Char.ofNat_toNat] at hd
  · rw [hzero, CharSet.contains_eq_any] at hd
    exact absurd hd (by decide)

lemma gap_ascii (hc : c.toNat < 128) :
    (gap.contains c = true → c.toLower = c ∧ c.toUpper = c) ∧ gap.contains c.toLower = gap.contains c ∧
      gap.contains c.toUpper = gap.contains c :=
  forall_ascii (P := fun c => (gap.contains c = true → c.toLower = c ∧ c.toUpper = c) ∧
    gap.contains c.toLower = gap.contains c ∧ gap.contains c.toUpper = gap.contains c)
    (by simp only [CharSet.contains_eq_any]; decide +kernel) hc

/-- Gaps are kept in small letters, and no letter becomes one. -/
lemma gap_smallOf (c : Char) :
    (gap.contains c = true → smallOf c = [c]) ∧ ∀ d ∈ smallOf c, gap.contains d = gap.contains c := by
  by_cases hc : c.toNat < 128
  · obtain ⟨hkept, hlow, -⟩ := gap_ascii hc
    rw [smallOf, if_pos hc]
    exact ⟨fun h => by rw [(hkept h).1], fun d hd => by rw [List.mem_singleton.mp hd, hlow]⟩
  by_cases hdot : c = '\u0130'
  · subst hdot
    have hnone : gap.contains '\u0130' = false ∧ gap.contains 'i' = false ∧ gap.contains '\u0307' = false := by
      simp only [CharSet.contains_eq_any]
      decide
    have hform : smallOf '\u0130' = ['i', '\u0307'] := rfl
    rw [hform]
    simp [hnone]
  · obtain ⟨hkept, hsame⟩ := gap_mapCase (fun range hrange => (gap_runs hrange).1) c
    rw [smallOf_beyond hc hdot]
    exact ⟨fun h => by rw [hkept h, Char.ofNat_toNat], fun d hd => by rw [List.mem_singleton.mp hd, hsame]⟩

/-- Gaps are kept in capitals, and no letter becomes one. -/
lemma gap_capitalOf (c : Char) :
    (gap.contains c = true → capitalOf c = [c]) ∧ ∀ d ∈ capitalOf c, gap.contains d = gap.contains c := by
  by_cases hc : c.toNat < 128
  · obtain ⟨hkept, -, hup⟩ := gap_ascii hc
    rw [capitalOf_ascii hc]
    exact ⟨fun h => by rw [(hkept h).2], fun d hd => by rw [List.mem_singleton.mp hd, hup]⟩
  rcases capitalOf_beyond hc with ⟨entry, hentry, hkey, hforms⟩ | hrun
  · have hnone : gap.contains c = false := by
      rw [Bool.eq_false_iff]
      intro h
      obtain ⟨range, hrange, hin⟩ := CharSet.contains_iff.mp h
      exact (gap_runs hrange).2.2 entry hentry _ (hkey ▸ List.mem_cons_self) hin
    refine ⟨fun h => absurd h (by simp [hnone]), fun d hd => ?_⟩
    rw [hforms, List.mem_map] at hd
    obtain ⟨n, hn, rfl⟩ := hd
    rw [hnone, Bool.eq_false_iff]
    intro h
    obtain ⟨range, hrange, hin⟩ := CharSet.contains_iff.mp h
    rcases toNat_ofNat_or n with hnat | hzero
    · rw [hnat] at hin
      exact (gap_runs hrange).2.2 entry hentry n (List.mem_cons_of_mem _ hn) hin
    · rw [hzero, CharSet.contains_eq_any] at h
      exact absurd h (by decide)
  · obtain ⟨hkept, hsame⟩ := gap_mapCase (fun range hrange => (gap_runs hrange).2.1) c
    rw [hrun]
    exact ⟨fun h => by rw [hkept h, Char.ofNat_toNat], fun d hd => by rw [List.mem_singleton.mp hd, hsame]⟩

end Gaps

end SkillAtlas.Text
