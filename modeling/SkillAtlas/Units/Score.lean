import SkillAtlas.Settings
import SkillAtlas.Units.Basic
import SkillAtlas.Vocabulary.Basic

/-!
# Complexity and category

The score adds weights for lines, actions, calls, guards and events, and a bonus for every action that is
complex in itself; limits on the score give the tier. The category is the one whose keywords fit the
actions and the name best, the earlier one of two that fit equally well.
-/

namespace SkillAtlas

def weighted (count : Int) (weight : Value) : Except Fault Value :=
  (Value.int count).mul weight

/-- The weighted sum of the counts, before any bonus. -/
def baseScore (w : ComplexitySettings) (lines actions calls guards lifecycle : Int) :
    Except Fault Value := do
  let s ← (← weighted lines w.lineWeight).add (← weighted actions w.actionWeight)
  let s ← s.add (← weighted calls w.callWeight)
  let s ← s.add (← weighted guards w.guardWeight)
  s.add (← weighted lifecycle w.lifecycleWeight)

def complexityScore (v : Vocabulary) (w : ComplexitySettings) (lines : Int) (actions : List String)
    (calls guards lifecycle : Int) : Except Fault Value := do
  let base ← baseScore w lines actions.length calls guards lifecycle
  (actions.filter v.isComplex).foldlM (fun s _ => s.add w.complexActionBonus) base

def tierOf (w : ComplexitySettings) (score : Value) : Except Fault Tier := do
  if ← score.less w.beginnerBelow then return .beginner
  if ← score.less w.intermediateBelow then return .intermediate
  if ← score.less w.advancedBelow then return .advanced
  return .expert

/-- What the actions add to a category: three points for each that holds one of the keywords. -/
def actionPoints (keywords actions : List String) : Nat :=
  3 * actions.countP fun a => keywords.any (Text.contains a)

/-- What the keywords add by the name, given in small letters: five points for each that it holds. -/
def namePoints (keywords : List String) (smallName : String) : Nat :=
  5 * keywords.countP (Text.contains smallName)

def categoryPoints (keywords : List String) (smallName : String) (actions : List String) : Nat :=
  actionPoints keywords actions + namePoints keywords smallName

/-- The first category with the most points, or `best` if none has more points than it. -/
def bestCategory (points : List String → Nat) (best : String × Nat) :
    List (String × List String) → String
  | [] => best.1
  | (name, keywords) :: rest =>
    bestCategory points (if best.2 < points keywords then (name, points keywords) else best) rest

/-- The category for units that fit none. -/
def usualCategory : String :=
  "utility"

def suggestCategory (v : Vocabulary) (name : String) (actions : List String) : String :=
  let small := Text.lower name
  bestCategory (fun keywords => categoryPoints keywords small actions) (usualCategory, 0) v.categories

end SkillAtlas
