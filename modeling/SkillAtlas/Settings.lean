import SkillAtlas.Value.Arithmetic
import SkillAtlas.Value.Mapping

/-!
# Settings of an analysis

Every weight, limit and confidence that an analysis uses. They are given by users as values of any kind,
and a value is used as it is given: a weight that is no number is a fault only where it is computed with.
-/

namespace SkillAtlas

/-- The value under a key, or the usual one. -/
def settingOr (es : Entries) (key : String) (usual : Value) : Value :=
  (Entries.named? es key).getD usual

/-- Weights of the complexity score, and the scores below which a unit belongs to a tier. -/
structure ComplexitySettings where
  /-- per line -/
  lineWeight : Value := .int 2
  /-- per distinct action -/
  actionWeight : Value := .int 3
  /-- per call -/
  callWeight : Value := .int 5
  /-- per distinct guard -/
  guardWeight : Value := .int 4
  /-- per distinct event -/
  lifecycleWeight : Value := .int 3
  /-- per action that is complex in itself -/
  complexActionBonus : Value := .int 8
  /-- beginners score less -/
  beginnerBelow : Value := .int 15
  /-- intermediate units score less -/
  intermediateBelow : Value := .int 35
  /-- advanced units score less -/
  advancedBelow : Value := .int 60
deriving Inhabited

namespace ComplexitySettings

def ofEntries (es : Entries) : ComplexitySettings :=
  let usual : ComplexitySettings := {}
  {
    lineWeight := settingOr es "line_weight" usual.lineWeight
    actionWeight := settingOr es "action_weight" usual.actionWeight
    callWeight := settingOr es "call_weight" usual.callWeight
    guardWeight := settingOr es "guard_weight" usual.guardWeight
    lifecycleWeight := settingOr es "lifecycle_weight" usual.lifecycleWeight
    complexActionBonus := settingOr es "complex_action_bonus" usual.complexActionBonus
    beginnerBelow := settingOr es "beginner_below" usual.beginnerBelow
    intermediateBelow := settingOr es "intermediate_below" usual.intermediateBelow
    advancedBelow := settingOr es "advanced_below" usual.advancedBelow }

def toValue (s : ComplexitySettings) : Value :=
  .map [
    (.str "line_weight", s.lineWeight),
    (.str "action_weight", s.actionWeight),
    (.str "call_weight", s.callWeight),
    (.str "guard_weight", s.guardWeight),
    (.str "lifecycle_weight", s.lifecycleWeight),
    (.str "complex_action_bonus", s.complexActionBonus),
    (.str "beginner_below", s.beginnerBelow),
    (.str "intermediate_below", s.intermediateBelow),
    (.str "advanced_below", s.advancedBelow)]

end ComplexitySettings

/-- Confidences and least lengths of the searches for groups. -/
structure DetectorSettings where
  /-- a unit and the targets of its callbacks -/
  lifecycleExplicitConfidence : Value := .float 0.95
  /-- a unit and satellites that are found by name alone -/
  lifecycleNamingConfidence : Value := .float 0.92
  /-- a mob and its variants -/
  variantFamilyConfidence : Value := .float 0.95
  /-- all units of a document -/
  documentPrefixConfidence : Value := .float 0.98
  /-- the units that a root reaches -/
  callChainConfidence : Value := .float 0.95
  /-- units with a common start -/
  prefixBaseConfidence : Value := .float 0.5
  /-- added for each unit with the common start -/
  prefixStepConfidence : Value := .float 0.1
  /-- the most for units with a common start -/
  prefixMaxConfidence : Value := .float 0.9
  /-- a base and the names made from it -/
  suffixPatternConfidence : Value := .float 0.85
  /-- the least start of all names of a document -/
  documentPrefixMinLength : Value := .int 5
  /-- the least common start of two names -/
  namingPrefixMinLength : Value := .int 3
  /-- the least common start after which a group is named -/
  groupNameMinPrefix : Value := .int 3
deriving Inhabited

namespace DetectorSettings

def ofEntries (es : Entries) : DetectorSettings :=
  let usual : DetectorSettings := {}
  {
    lifecycleExplicitConfidence := settingOr es "lifecycle_explicit_confidence" usual.lifecycleExplicitConfidence
    lifecycleNamingConfidence := settingOr es "lifecycle_naming_confidence" usual.lifecycleNamingConfidence
    variantFamilyConfidence := settingOr es "variant_family_confidence" usual.variantFamilyConfidence
    documentPrefixConfidence := settingOr es "document_prefix_confidence" usual.documentPrefixConfidence
    callChainConfidence := settingOr es "call_chain_confidence" usual.callChainConfidence
    prefixBaseConfidence := settingOr es "prefix_base_confidence" usual.prefixBaseConfidence
    prefixStepConfidence := settingOr es "prefix_step_confidence" usual.prefixStepConfidence
    prefixMaxConfidence := settingOr es "prefix_max_confidence" usual.prefixMaxConfidence
    suffixPatternConfidence := settingOr es "suffix_pattern_confidence" usual.suffixPatternConfidence
    documentPrefixMinLength := settingOr es "document_prefix_min_length" usual.documentPrefixMinLength
    namingPrefixMinLength := settingOr es "naming_prefix_min_length" usual.namingPrefixMinLength
    groupNameMinPrefix := settingOr es "group_name_min_prefix" usual.groupNameMinPrefix }

def toValue (s : DetectorSettings) : Value :=
  .map [
    (.str "lifecycle_explicit_confidence", s.lifecycleExplicitConfidence),
    (.str "lifecycle_naming_confidence", s.lifecycleNamingConfidence),
    (.str "variant_family_confidence", s.variantFamilyConfidence),
    (.str "document_prefix_confidence", s.documentPrefixConfidence),
    (.str "call_chain_confidence", s.callChainConfidence),
    (.str "prefix_base_confidence", s.prefixBaseConfidence),
    (.str "prefix_step_confidence", s.prefixStepConfidence),
    (.str "prefix_max_confidence", s.prefixMaxConfidence),
    (.str "suffix_pattern_confidence", s.suffixPatternConfidence),
    (.str "document_prefix_min_length", s.documentPrefixMinLength),
    (.str "naming_prefix_min_length", s.namingPrefixMinLength),
    (.str "group_name_min_prefix", s.groupNameMinPrefix)]

end DetectorSettings

/-- When a unit is remarked on. -/
structure DiagnosticsSettings where
  /-- an expert unit with more lines is remarked on -/
  highComplexityMinLines : Value := .int 20
deriving Inhabited

namespace DiagnosticsSettings

def ofEntries (es : Entries) : DiagnosticsSettings :=
  let usual : DiagnosticsSettings := {}
  {
    highComplexityMinLines := settingOr es "high_complexity_min_lines" usual.highComplexityMinLines }

def toValue (s : DiagnosticsSettings) : Value :=
  .map [
    (.str "high_complexity_min_lines", s.highComplexityMinLines)]

end DiagnosticsSettings

/-- The score budget for the likeness of two template records. -/
structure SimilaritySettings where
  /-- for equal names -/
  nameExact : Value := .int 30
  /-- for a name that lies in the other -/
  nameSubstring : Value := .int 20
  /-- the most for a common start of the names -/
  namePrefixCap : Value := .int 15
  /-- per character of the common start -/
  namePrefixPerChar : Value := .int 3
  /-- for one category -/
  categoryMatch : Value := .int 20
  /-- for equally many sections -/
  sectionEqual : Value := .int 20
  /-- for a difference of one section -/
  sectionNear : Value := .int 10
  /-- for equal lines -/
  lineOverlap : Value := .int 30
  /-- duplicates are more alike than this -/
  duplicateThreshold : Value := .float 0.5
  /-- at most so many duplicates are given -/
  duplicateLimit : Value := .int 3
deriving Inhabited

namespace SimilaritySettings

def ofEntries (es : Entries) : SimilaritySettings :=
  let usual : SimilaritySettings := {}
  {
    nameExact := settingOr es "name_exact" usual.nameExact
    nameSubstring := settingOr es "name_substring" usual.nameSubstring
    namePrefixCap := settingOr es "name_prefix_cap" usual.namePrefixCap
    namePrefixPerChar := settingOr es "name_prefix_per_char" usual.namePrefixPerChar
    categoryMatch := settingOr es "category_match" usual.categoryMatch
    sectionEqual := settingOr es "section_equal" usual.sectionEqual
    sectionNear := settingOr es "section_near" usual.sectionNear
    lineOverlap := settingOr es "line_overlap" usual.lineOverlap
    duplicateThreshold := settingOr es "duplicate_threshold" usual.duplicateThreshold
    duplicateLimit := settingOr es "duplicate_limit" usual.duplicateLimit }

def toValue (s : SimilaritySettings) : Value :=
  .map [
    (.str "name_exact", s.nameExact),
    (.str "name_substring", s.nameSubstring),
    (.str "name_prefix_cap", s.namePrefixCap),
    (.str "name_prefix_per_char", s.namePrefixPerChar),
    (.str "category_match", s.categoryMatch),
    (.str "section_equal", s.sectionEqual),
    (.str "section_near", s.sectionNear),
    (.str "line_overlap", s.lineOverlap),
    (.str "duplicate_threshold", s.duplicateThreshold),
    (.str "duplicate_limit", s.duplicateLimit)]

/-- The score of two records that are alike in everything. -/
def maxScore (s : SimilaritySettings) : Except Fault Value := do
  (← (← s.nameExact.add s.categoryMatch).add s.sectionEqual).add s.lineOverlap

end SimilaritySettings

/-- The settings of an analysis. -/
structure Settings where
  complexity : ComplexitySettings := {}
  detectors : DetectorSettings := {}
  diagnostics : DiagnosticsSettings := {}
  similarity : SimilaritySettings := {}
deriving Inhabited

namespace Settings

/-- The entries of a section. A section that is empty in any way has none. -/
def sectionEntries (es : Entries) (name : String) : Except Fault Entries :=
  match Entries.named? es name with
  | none => .ok []
  | some (.map given) => .ok given
  | some v => if v.isTruthy then .error .noMember else .ok []

/-- The settings that a value gives. What it leaves out has its usual value, and an empty value leaves out
everything. -/
def ofValue (v : Value) : Except Fault Settings :=
  match v with
  | .map es => do
    return {
      complexity := .ofEntries (← sectionEntries es "complexity")
      detectors := .ofEntries (← sectionEntries es "detectors")
      diagnostics := .ofEntries (← sectionEntries es "diagnostics")
      similarity := .ofEntries (← sectionEntries es "similarity") }
  | v => if v.isTruthy then .error .noMember else .ok {}

def toValue (s : Settings) : Value :=
  .map [
    (.str "complexity", s.complexity.toValue),
    (.str "detectors", s.detectors.toValue),
    (.str "diagnostics", s.diagnostics.toValue),
    (.str "similarity", s.similarity.toValue)]

end Settings

end SkillAtlas
