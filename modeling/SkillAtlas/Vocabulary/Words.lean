/-!
# The packaged tables without the actions

The selectors that say whom or what a skill line is aimed at and the events that start one, kind by kind, and the
small tables: suffixes, fields, categories and keywords. Spelling and order matter as given here.
-/

namespace SkillAtlas.Packaged

def targetSelectors : List String :=
  [
    -- single entity
    "@self", "@caster", "@boss", "@mob", "@target", "@t", "@trigger", "@nearestplayer",
    "@wolfowner", "@owner", "@parent", "@summoner", "@mount", "@vehicle", "@father", "@dad",
    "@daddy", "@mother", "@mom", "@mommy", "@passenger", "@rider", "@playerbyname",
    "@specificplayer", "@uniqueidentifier", "@uuid", "@interactionlastattacker",
    "@lastattacker", "@interactionlastinteract", "@lastinteract",
    -- multi entity
    "@livingincone", "@entitiesincone", "@livingentitiesincone", "@leic", "@eic",
    "@livinginworld", "@eiw", "@allinworld", "@livingentitiesinworld", "@entitiesinworld",
    "@notlivingnearorigin", "@nonlivingnearorigin", "@nlno", "@playersinradius", "@pir",
    "@mobsinradius", "@mir", "@mobs", "@entitiesinradius", "@livingentitiesinradius",
    "@livinginradius", "@allinradius", "@eir", "@entitiesnearby", "@nearbyentities",
    "@entitiesinring", "@eirr", "@entitiesinringnearorigin", "@erno", "@playersinworld",
    "@world", "@playersonserver", "@server", "@everyone", "@playersinring",
    "@playersnearorigin", "@pno", "@trackedplayers", "@tracked", "@mobsnearorigin",
    "@entitiesnearorigin", "@eno", "@children", "@child", "@summons", "@siblings", "@sibling",
    "@brothers", "@sisters", "@itemsnearorigin", "@itemsinradius", "@iir",
    -- threat table
    "@threattable", "@tt", "@threattableplayers", "@randomthreattarget", "@rtt",
    "@randomthreattargetlocation", "@rttl", "@highestthreat",
    -- single location
    "@selflocation", "@casterlocation", "@bosslocation", "@moblocation", "@selfeyelocation",
    "@eyedirection", "@castereyelocation", "@bosseyelocation", "@mobeyelocation", "@forward",
    "@projectileforward", "@targetlocation", "@targetloc", "@tl", "@triggerlocation", "@origin",
    "@source", "@location", "@spawnlocation", "@casterspawnlocation", "@variablelocation",
    "@varlocation", "@targetpredictedlocation", "@obstructingblock", "@targetblock",
    "@neareststructure", "@highestblock", "@playerlocationbyname", "@forwardwall",
    "@ownerlocation", "@parentlocation", "@summonerlocation",
    -- multi location
    "@ring", "@cone", "@sphere", "@rectangle", "@cube", "@cuboid", "@line",
    "@randomlocationsnearcaster", "@randomlocations", "@rlnc", "@randomlocationsnearorigin",
    "@rlo", "@randomlocationsorigin", "@rlno", "@randomlocationsneartarget", "@rlnt",
    "@randomlocationsneartargets", "@blocksnearorigin", "@bno", "@blocksinradius", "@bir",
    "@ringaroundorigin", "@ringorigin", "@rao", "@playerlocationsinradius", "@spawners",
    "@chunksinweregion",
    -- meta entity
    "@livinginline", "@entitiesinline", "@livingentitiesinline", "@leil", "@eil",
    "@livingneartargetlocation", "@lntl", "@entl", "@ent", "@playersneartargetlocations",
    "@targetedtarget",
    -- meta location
    "@flooroftargets", "@locationsoftargets", "@targetedlocation", "@blocksinchunk",
    "@blockvein",
    -- special
    "@none", "@region"]

/-- The events that start a skill line. -/
def lifecycleEvents : List String :=
  [
    -- combat
    "~oncombat", "~onattack", "~ondamaged", "~onhurt", "~onentercombat", "~ondropcombat",
    "~onleavecombat", "~oncombatdrop", "~onexitcombat", "~onchangetarget", "~ontargetchange",
    "~onplayerkill", "~onkillplayer", "~onskilluse", "~onskilldamage", "~onskillhit",
    "~onskill_damage",
    -- lifecycle
    "~onspawn", "~ondespawn", "~ondespawned", "~onready", "~onfirstspawn", "~onload",
    "~onspawnorload", "~ondeath", "~onchangeworld", "~onchange_world", "~onworld_change",
    "~onworldchange", "~onrespawn",
    -- player interaction
    "~oninteract", "~ontame", "~onbreed", "~ontrade", "~onbucket", "~onusebucket",
    "~onfillbucket", "~onbucketfill", "~onmilk", "~onmilked",
    -- timed
    "~ontimer",
    -- projectile
    "~onshoot", "~onbowshoot", "~onshootbow", "~onbowhit", "~onbow_hit", "~onarrowhit",
    "~onprojectilehit", "~onprojectile_hit", "~ontrident_hit", "~ontridenthit",
    "~onprojectileland", "~onprojectile_land", "~ontridentland", "~onprojectilelaunch",
    -- special
    "~ondismounted", "~onunmounted", "~onexplode", "~onprime", "~oncreepercharge",
    "~oncreeper_charge", "~oncharged", "~oncharge", "~onteleport", "~onhear", "~onsignal",
    "~oncritical",
    -- block
    "~onswing", "~onleftclick", "~onuse", "~onrightclick", "~onblockplace", "~onplaceblock",
    "~onblockbreak", "~onbreakblock", "~onjump",
    -- mob kill trigger
    "~onmobkill", "~onkillmob"]

/-- Actions that add a bonus to the complexity score. -/
def complexActions : List String :=
  ["projectile", "aura", "orbital", "chain", "totem", "ray", "missile"]

/-- Attributes whose value names another unit. -/
def callbackAttributes : List String :=
  ["ontick", "onhit", "onstart", "onend", "onbounce", "onhitblock", "ohb", "oninteract",
    "ondamagedskill", "onattackskill", "onstartskill", "ontickskill", "onendskill",
    "oncooldownskill"]

/-- Ends of names that mark a lifecycle satellite of a base unit. -/
def lifecycleSuffixes : List String :=
  ["Start", "Tick", "End", "Hit", "Cooldown"]

/-- Ends of names from which bases are read when families are sought by name. -/
def namingSuffixes : List String :=
  ["-tick", "-hit", "-start", "-end", "-cooldown", "-effect", "_tick", "_hit", "-projectile",
    "-cast", "-aura", "-passive"]

/-- Fields that only definitions of mobs have, in their canonical spelling. -/
def mobFields : List String :=
  ["Type", "MobType", "Health", "Damage", "Armor", "Display", "DisplayName", "Faction",
    "Mount", "Options", "AIGoalSelectors", "AITargetSelectors", "Drops", "DamageModifiers",
    "Equipment", "KillMessages", "LevelModifiers", "Disguise", "BossBar", "Hearing", "Modules",
    "Components", "Trades", "Variables", "Nameplate", "Model", "ModelEngine", "ShowHealth",
    "PreventOtherDrops", "PreventRandomEquipment", "PreventSunburn", "PreventMobKillDrops",
    "PreventRename", "NoDamageTicks", "MaxCombatDistance", "FollowRange", "MovementSpeed",
    "KnockbackResistance", "AttackDamage", "AttackSpeed", "FlyingSpeed"]

def variantMarker : String :=
  "DUMMY"

/-- The categories with their keywords; of two that fit equally well, the earlier one counts. -/
def categories : List (String × List String) :=
  [
    ("combat", [
      "damage", "attack", "strike", "slash", "hit", "hurt", "kill", "weapon", "sword", "bow",
      "projectile", "shoot", "missile", "chain", "bolt", "beam"]),
    ("effects", [
      "particle", "sound", "effect", "visual", "display", "glow", "aura", "ring", "sphere",
      "line", "tornado", "flame", "smoke", "firework"]),
    ("movement", [
      "teleport", "dash", "leap", "lunge", "velocity", "speed", "jump", "fly", "launch",
      "throw", "pull", "push", "disengage", "propel", "spring"]),
    ("support", [
      "heal", "buff", "shield", "protect", "defense", "regen", "restore", "guard", "barrier"]),
    ("utility", [
      "message", "command", "setblock", "summon", "spawn", "signal", "variable", "score",
      "tag"]),
    ("crowd-control", [
      "stun", "slow", "root", "fear", "silence", "blind", "knockback", "throw", "pull",
      "freeze", "taunt", "disarm"]),
    ("passive", [
      "passive", "timer", "aura", "buff", "regen", "step", "drift", "flight"]),
    ("boss", [
      "boss", "ultimate", "phase", "special", "elite", "legendary"])]

/-- Words that tell a skill line from other text. -/
def skillLineKeywords : List String :=
  ["damage", "heal", "teleport", "projectile", "sound", "particle", "potion", "delay", "skill",
    "message", "effect", "summon", "aura", "orbital"]

end SkillAtlas.Packaged
