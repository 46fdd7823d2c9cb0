import SkillAtlas.Files.Stream
import SkillAtlas.Journal
import SkillAtlas.Vocabulary.ActionWords
import SkillAtlas.Vocabulary.Read
import SkillAtlas.Vocabulary.Words
import SkillAtlas.Yaml.Read

/-!
# The packaged vocabulary

The vocabulary that comes with the library, and vocabularies made by laying a user's tables over it:
lists grow at their ends, new categories come last, and nothing packaged is lost.
-/

namespace SkillAtlas.Vocabulary

/-- A list of texts as a value. -/
def listOfTexts (words : List String) : Value :=
  .list (words.map .str)

/-- The packaged tables as a value, over which others can be laid. -/
def packagedEntries : Entries := [
  (.str "actions", listOfTexts Packaged.actions),
  (.str "target_selectors", listOfTexts Packaged.targetSelectors),
  (.str "lifecycle_events", listOfTexts Packaged.lifecycleEvents),
  (.str "complex_actions", listOfTexts Packaged.complexActions),
  (.str "callback_attributes", listOfTexts Packaged.callbackAttributes),
  (.str "lifecycle_suffixes", listOfTexts Packaged.lifecycleSuffixes),
  (.str "naming_suffixes", listOfTexts Packaged.namingSuffixes),
  (.str "mob_fields", listOfTexts Packaged.mobFields),
  (.str "variant_marker", .str Packaged.variantMarker),
  (.str "categories", .map (Packaged.categories.map fun c => (.str c.1, listOfTexts c.2))),
  (.str "skill_line_keywords", listOfTexts Packaged.skillLineKeywords)]

def packaged : Vocabulary :=
  ofEntries packagedEntries

/-- Keys in ascending order; keys that cannot be compared are a fault. -/
def insertKey (k : Value) : List Value → Except Fault (List Value)
  | [] => .ok [k]
  | x :: rest => do
    if ← k.less x then return k :: x :: rest
    return x :: (← insertKey k rest)

/-- The keys of some tables in ascending order. -/
def sortedKeys (overrides : Value) : Except Fault (List Value) :=
  (overrides.entries.map Prod.fst).foldlM (fun sorted k => insertKey k sorted) []

/-- The value of the packaged tables with others laid over them. -/
def overlaidValue (overrides : Value) : Except Fault Value :=
  match overrides with
  | .map os => (Value.overlaidEntries packagedEntries os).map .map
  | _ => .error .noMember

/-- Where the packaged vocabulary is said to come from. -/
def packagedPath : String :=
  "<pkg>/data/vocabulary.yaml"

/-- What is reported of a vocabulary that was read. -/
def loadedNote (path : String) (v : Vocabulary) : Note :=
  .vocabularyLoaded path v.actions.length v.targetSelectors.length v.lifecycleEvents.length

/-- The packaged vocabulary with a user's tables laid over it. The keys of the tables have to be
comparable, since they are reported in order. -/
def withOverrides (overrides : Value) : Journal Vocabulary := do
  if !overrides.isTruthy then return packaged
  let v ← overlaidValue overrides
  let keys ← sortedKeys overrides
  Journal.note (.overridden keys)
  let vocabulary ← ofValue v
  Journal.note (loadedNote packagedPath vocabulary)
  return vocabulary

/-! ### Vocabularies read from files -/

/-- The value that a file holds; null if it is not there. -/
def fileValue (files : Files) (path : Path) : Except Fault Value :=
  if files.isThere path then do Yaml.readFrom (← files.source path) else .ok .null

def load (files : Files) (path : Path) : Journal Vocabulary := do
  let v ← fileValue files path
  if !v.isTruthy then Journal.fail (.settings (.emptyVocabulary path.text))
  else
    let vocabulary ← ofValue v
    Journal.note (loadedNote path.text vocabulary)
    return vocabulary

end SkillAtlas.Vocabulary
