import SkillAtlas.Fault
import SkillAtlas.Text.Casing

/-!
# Vocabularies

The words by which skill lines, mobs and families of names are recognised. Membership is asked in small
letters, so all lists that are searched hold small letters.
-/

namespace SkillAtlas

/-- The tables of words. -/
structure Vocabulary where
  /-- the mechanics that a line can start with -/
  actions : List String
  /-- the selectors of targets, each with its `@` -/
  targetSelectors : List String
  /-- the events that start a line, each with its `~` -/
  lifecycleEvents : List String
  /-- the actions that add a bonus to the score -/
  complexActions : List String
  /-- the attributes whose value names a unit -/
  callbackAttributes : List String
  /-- the ends of names that mark a satellite of a base unit, in their own spelling -/
  lifecycleSuffixes : List String
  /-- the ends of names from which bases are read, in their own spelling -/
  namingSuffixes : List String
  /-- the fields of mobs in their canonical spelling -/
  mobFields : List String
  /-- the categories with their keywords -/
  categories : List (String × List String)
  /-- words that tell a skill line from other text -/
  skillLineKeywords : List String
  /-- what marks an auxiliary variant of a mob -/
  variantMarker : String
deriving Inhabited

namespace Vocabulary

def isAction (v : Vocabulary) (word : String) : Bool :=
  v.actions.contains (Text.lower word)

def isTargetSelector (v : Vocabulary) (word : String) : Bool :=
  v.targetSelectors.contains (Text.lower word)

def isLifecycleEvent (v : Vocabulary) (word : String) : Bool :=
  v.lifecycleEvents.contains (Text.lower word)

def isComplex (v : Vocabulary) (action : String) : Bool :=
  v.complexActions.contains action

/-- The canonical spelling of a field of mobs. Of two spellings that differ by case alone, the first is
the canonical one. -/
def canonicalMobField? (v : Vocabulary) (key : Value) : Except Fault (Option String) := do
  let small := Text.lower (← key.told)
  return v.mobFields.find? fun f => Text.lower f == small

/-- Each field of mobs in small letters, with its canonical spelling. -/
def mobFieldIndex (v : Vocabulary) : List (String × String) :=
  ((v.mobFields.map Text.lower).eraseDups).filterMap fun low =>
    (v.mobFields.find? fun f => Text.lower f == low).map (low, ·)

end Vocabulary

end SkillAtlas
