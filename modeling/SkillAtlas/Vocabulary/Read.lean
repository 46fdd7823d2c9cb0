import SkillAtlas.Value.Arithmetic
import SkillAtlas.Value.Shape
import SkillAtlas.Vocabulary.Basic

/-!
# Vocabularies read from values

A value is checked against the shape of a vocabulary and then read table by table. Tables that are
searched are put in small letters, and those in which order has no meaning lose their repeats. The reader
takes its tables for lists of texts: it relies on the check, and fails on values of other kinds.
-/

namespace SkillAtlas.Vocabulary

def shape : Shape :=
  .record ["actions", "target_selectors", "lifecycle_events", "mob_fields", "categories"] [
    ("actions", .texts), ("target_selectors", .texts), ("lifecycle_events", .texts),
    ("complex_actions", .texts), ("callback_attributes", .texts), ("lifecycle_suffixes", .texts),
    ("naming_suffixes", .texts), ("mob_fields", .texts), ("skill_line_keywords", .texts),
    ("variant_marker", .someText), ("categories", .mapTo .texts)]

/-- The suffixes of satellites for a vocabulary that gives none. -/
def usualSuffixes : List String :=
  ["Start", "Tick", "End", "Hit", "Cooldown"]

/-- The marker of variants for a vocabulary that gives none. -/
def usualMarker : String :=
  "DUMMY"

/-- The texts of a list. -/
def textsOf : Value → List String
  | .list items => items.filterMap fun v => match v with
    | .str s => some s
    | _ => none
  | _ => []

def texts (es : Entries) (key : String) : List String :=
  ((Entries.named? es key).map textsOf).getD []

/-- The distinct texts under a key, in small letters. -/
def words (es : Entries) (key : String) : List String :=
  ((texts es key).map Text.lower).eraseDups

/-- The categories under a key. -/
def categoriesOf (es : Entries) (key : String) : List (String × List String) :=
  ((Entries.named? es key).map Value.entries).getD [] |>.map fun e =>
    (e.1.text, (textsOf e.2).map Text.lower)

/-- The vocabulary that the entries of a checked value give. -/
def ofEntries (es : Entries) : Vocabulary where
  actions := words es "actions"
  targetSelectors := words es "target_selectors"
  lifecycleEvents := words es "lifecycle_events"
  complexActions := words es "complex_actions"
  callbackAttributes := words es "callback_attributes"
  lifecycleSuffixes := ((Entries.named? es "lifecycle_suffixes").map textsOf).getD usualSuffixes
  namingSuffixes := texts es "naming_suffixes"
  mobFields := (texts es "mob_fields").eraseDups
  categories := categoriesOf es "categories"
  skillLineKeywords := (texts es "skill_line_keywords").map Text.lower
  variantMarker := match Entries.named? es "variant_marker" with
    | some (.str s) => s
    | _ => usualMarker

/-- The table under a key that has to be there. -/
def tableAt (es : Entries) (key : String) : Except Fault Value :=
  match Entries.named? es key with
  | some v => .ok v
  | none => .error .missingKey

/-- An item that is kept as it is. -/
def plainItem : Value → Except Fault String
  | .str s => .ok s
  | _ => .error .noMember

/-- An item in small letters. -/
def smallItem (v : Value) : Except Fault String :=
  (plainItem v).map Text.lower

/-- The items of a table, each of them read. -/
def readItems (item : Value → Except Fault String) (table : Value) : Except Fault (List String) := do
  (← table.elements).mapM item

/-- The items under a key, each of them read; if nothing is there, the usual ones. -/
def readItemsOr (item : Value → Except Fault String) (usual : List String) (es : Entries) (key : String) :
    Except Fault (List String) :=
  match Entries.named? es key with
  | some table => readItems item table
  | none => .ok usual

/-- The text under a key; if nothing is there, the usual one. -/
def readTextOr (usual : String) (es : Entries) (key : String) : Except Fault String :=
  match Entries.named? es key with
  | some v => plainItem v
  | none => .ok usual

/-- The distinct items of a table. They are told apart as keys before they are read. -/
def readFields (table : Value) : Except Fault (List String) := do
  let items ← table.elements
  if items.all Value.isKey then return (← items.mapM plainItem).eraseDups
  else .error .wrongKind

/-- A category with its keywords, which may be of any kind. -/
def readCategory (e : Value × Value) : Except Fault (String × List String) := do
  let name ← e.1.told
  return (name, ← (← e.2.elements).mapM fun k => k.told.map Text.lower)

/-- The categories of a table. -/
def readCategories : Value → Except Fault (List (String × List String))
  | .map es => es.mapM readCategory
  | _ => .error .noMember

/-- The vocabulary that tables give, read one after the other. -/
def fromTables (es : Entries) : Except Fault Vocabulary := do
  let categories ← readCategories (← tableAt es "categories")
  let mobFields ← readFields (← tableAt es "mob_fields")
  let actions ← readItems smallItem (← tableAt es "actions")
  let targetSelectors ← readItems smallItem (← tableAt es "target_selectors")
  let lifecycleEvents ← readItems smallItem (← tableAt es "lifecycle_events")
  let complexActions ← readItemsOr smallItem [] es "complex_actions"
  let callbackAttributes ← readItemsOr smallItem [] es "callback_attributes"
  let lifecycleSuffixes ← readItemsOr plainItem usualSuffixes es "lifecycle_suffixes"
  let namingSuffixes ← readItemsOr plainItem [] es "naming_suffixes"
  let skillLineKeywords ← readItemsOr smallItem [] es "skill_line_keywords"
  let variantMarker ← readTextOr usualMarker es "variant_marker"
  return {
    actions := actions.eraseDups
    targetSelectors := targetSelectors.eraseDups
    lifecycleEvents := lifecycleEvents.eraseDups
    complexActions := complexActions.eraseDups
    callbackAttributes := callbackAttributes.eraseDups
    lifecycleSuffixes, namingSuffixes, mobFields, categories, skillLineKeywords, variantMarker }

def ofValue (v : Value) : Except Fault Vocabulary :=
  match shape.violation? v with
  | .error f => .error f
  | .ok (some violation) => .error (.settings (.invalidVocabulary violation))
  | .ok none => match v with
    | .map es => fromTables es
    | _ => .error .wrongKind

end SkillAtlas.Vocabulary
