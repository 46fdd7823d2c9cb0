/-!
# The packaged actions

The mechanics that a skill line can start with, kind by kind.
-/

namespace SkillAtlas.Packaged

/-- The mechanics that a skill line can start with. -/
def actions : List String :=
  [
    -- damage
    "damage", "d", "basedamage", "percentdamage", "perdamage", "damagepercent", "hit",
    "physicaldamage", "meleehit", "explosion", "explode", "fakeexplosion", "fakeexplode",
    -- healing
    "heal", "h", "healpercent", "percentheal", "hp", "feed", "shield",
    -- movement
    "teleport", "tp", "teleportto", "tpto", "leap", "throw", "velocity", "jump", "lunge",
    "pull", "forcepull", "disengage", "dash", "propel", "spring", "recoil",
    "directionalvelocity", "dvelocity",
    -- projectile
    "projectile", "p", "missile", "mi", "orbital", "totem", "chain", "chainmissile", "cmi",
    "shoot", "shootprojectile", "shootfireball", "fireball", "shootskull", "skull",
    "shootshulkerbullet", "shulkerbullet", "shootpotion", "potionprojectile", "arrowvolley",
    "volley", "beam", "enderbeam", "guardianbeam", "gbeam", "ray", "raytrace", "raytraceto",
    "slash", "polygon",
    -- particle
    "particle", "particles", "effect:particles", "e:particles", "e:particle", "e:p",
    "particleline", "effect:particleline", "e:pl", "pl", "particlering", "effect:particlering",
    "e:pr", "pr", "particlesphere", "effect:particlesphere", "e:ps", "ps", "particlebox",
    "effect:particlebox", "e:pb", "pb", "particletornado", "effect:particletornado", "e:pt",
    "particleorbital", "effect:particleorbital", "particlecircle", "particleequation",
    "effect:particleequation", "e:peq", "peq", "particlelinehelix", "particlehelixline",
    "particlelinering", "particleringline", "particlewave", "geyser", "atom", "effect:atom",
    "e:atom", "ender", "effect:ender", "e:ender", "flames", "effect:flames", "e:flames",
    "smoke", "effect:smoke", "e:smoke", "smokeswirl", "swirl",
    -- sound
    "sound", "effect:sound", "e:sound", "e:s", "stopsound", "playblockbreaksound",
    "blockbreaksound",
    -- potion/effect
    "potion", "potionclear", "clearpotions", "aura", "auraremove", "removeaura", "stataura",
    "statbuff", "statdebuff",
    -- status effect
    "stun", "silence", "disarm", "root", "slow", "blind", "fear", "taunt", "freeze", "glow",
    -- entity control
    "settarget", "cleartarget", "resettarget", "setai", "resetai", "setfaction", "faction",
    "setlevel", "setname", "sethealth", "sethp", "setmaxhealth", "setgravity", "setspeed",
    "setcollidable", "collidable", "setflying", "fly", "setgliding", "glide", "hide",
    "invisible", "showentity", "show",
    -- mount
    "mount", "vehicle", "mountme", "mounttarget", "dismount", "remount", "ejectpassenger",
    "saddle", "passenger", "rider",
    -- summon
    "summon", "spawnmobs", "spawnmob", "remove", "delete", "suicide", "kill", "die",
    "decapitate", "drophead",
    -- message
    "message", "m", "msg", "speak", "say", "sendactionmessage", "actionmsg", "sendtitle",
    "title", "sendtoast", "toast", "jsonmessage", "jsonmsg", "randommessage", "randmsg",
    -- command
    "command", "sudocommand", "sudoskill", "sudo",
    -- skill
    "skill", "metaskill", "meta", "s", "$", "()", "mechanics", "spell", "randomskill", "rskill",
    "randskill", "variableskill", "varskill", "cancelskill", "cancel", "return",
    -- timing
    "delay", "wait", "repeat", "foreach", "foreachvalue",
    -- aura/buff
    "ondamaged", "onattack", "onhit", "ondeath", "oninteract", "onrightclick", "onshoot",
    "onbowshoot", "onswing", "onleftclick", "onblockbreak", "onbreakblock", "onblockplace",
    "onplaceblock", "onjump", "onchat", "chatprompt",
    -- variable
    "setvariable", "var", "variableadd", "varadd", "variablesubtract", "varsub", "variablemath",
    "varmath", "variablemove", "movevar", "varmove", "variableunset", "varunset",
    "setvariablelocation", "varloc",
    -- score
    "modifyscore", "modscore", "setscore", "modifyglobalscore", "modglobalscore",
    "setglobalscore", "globalscore", "modifymobscore", "modmobscore", "setmobscore", "mobscore",
    "modifytargetscore", "modtargetscore", "settargetscore", "targetscore",
    -- block
    "setblock", "setblocktype", "breakblock", "break", "breakblockandgiveitem", "breakgive",
    "blockmask", "mask", "blockunmask", "unmask", "blockwave", "wave", "blockdestabilize",
    "destabilizeblock", "blockphysics", "physics", "pushblock", "blockpush", "setblockopen",
    "blockopen", "bonemeal",
    -- world
    "lightning", "fakelightning", "effect:lightning", "e:lightning", "weather", "time",
    "settime", "activatespawner", "spawner", "setchunkforceloaded", "forceload", "fawepaste",
    "paste", "undopaste", "undo", "worldeditreplace", "wereplace",
    -- item
    "giveitem", "give", "takeitem", "take", "dropitem", "equip", "equipcopy", "copyequip",
    "giveitemfromslot", "givefromslot", "giveitemfromtarget", "givefromtarget", "consume",
    "consumeslot", "consumeslotitem", "removehelditem", "consumehelditem", "takehelditem",
    "stealitem", "steal", "pickupitem", "pickup", "itemspray", "spray",
    -- cooldown
    "globalcooldown", "gcd", "setgcd", "setglobalcooldown", "setskillcooldown", "ssc",
    "setcooldown", "setitemgroupcooldown", "groupcooldown", "setmaterialcooldown",
    "materialcooldown",
    -- disguise
    "disguise", "disguisetarget", "undisguise", "disguisemodify", "modifydisguise",
    -- signal
    "signal", "sendsignal",
    -- threat
    "threat", "threatchange", "threatmod", "rally", "callforhelp",
    -- experience
    "giveexperiencelevels", "givelevels", "takeexperiencelevels", "takelevels",
    "clearexperience", "clearxp", "clearexp", "clearexperiencelevels", "clearlevels",
    -- ai
    "goto", "pathto", "navigateto", "followpath", "runaigoalselector", "rungoal",
    "runaitargetselector", "runtarget", "gotonpc", "walkto", "lookatplayers",
    -- look
    "look", "rotatetowards", "rotate", "setrotation", "rotation", "setpitch", "pitch",
    "matchrotation", "matchrot", "spin",
    -- display
    "hologram", "blackscreen", "fadescreen", "bloodyscreen", "bloodscreen", "skybox",
    "displaytransformation", "settransformation", "transformation", "settextdisplay",
    "textdisplay", "setdisplayentityitem", "displayitem",
    -- armor stand
    "animatearmorstand", "armorstandanim", "posearmorstand", "armorstandpose", "setpose", "pose",
    -- animation
    "armanimation", "armanim", "playanimation", "playanim", "swingoffhand", "offhandswing",
    -- firework
    "firework", "fireworks", "effect:firework", "e:firework",
    -- tag
    "addtag", "tag", "removetag", "untag",
    -- owner/parent
    "setowner", "owner", "removeowner", "clearowner", "setparent", "parent",
    -- prison
    "prison", "bouncy", "bounce",
    -- mob-specific
    "ignite", "extinguish", "removefire", "oxygen", "setleasholder", "leash", "settongueTarget",
    "tongue", "goatram", "creepercharge", "enderdragonsphase", "setdragonphase",
    "enderdragonresetcrystals", "resetcrystals", "enderdragonspawnportal", "spawnportal",
    "setdragonpodium", "dragonpodium", "setraidercanjoinraid", "setcanjoinraid",
    "setraiderpatrolblock", "patrolblock", "setraiderpatrolleader", "patrolleader",
    -- inventory
    "closeinventory", "closeinv", "opencustommenu", "openmenu", "opentrades", "trade",
    "addtrade",
    -- boss bar
    "barcreate", "createbar", "bossbar", "barremove", "removebar", "barset", "setbar",
    "updatebar", "bossborder", "worldborder",
    -- resource pack
    "sendresourcepack", "resourcepack",
    -- misc
    "cancelevent", "swap", "swaplocations", "tracklocation", "track", "modifydamage",
    "moddamage", "modifyprojectile", "projectilemodify", "projectilevelocity", "pvelocity",
    "endprojectile", "terminateprojectile", "endproj", "stopproj", "setprojectilebulletmodel",
    "setprojectiledirection", "determinecondition", "detcond", "switch", "setnodamageticks",
    "nodamageticks", "setpathfindingmalus", "pathmalus", "setstance", "stance", "togglelever",
    "lever", "togglepiston", "piston", "togglesitting", "sit", "stopusingitem", "stopuse",
    "cast", "shieldbreak", "breakshield", "totemofundying", "totem", "attribute",
    "attributemodifier", "attrmod", "buff", "debuff", "setinteractionsize", "interactionsize",
    "setmobcolor", "mobcolor", "setcolor", "setgamemode", "gamemode", "log", "printtree",
    "printparenttree", "terminable", "stoppable", "cancelable", "exit", "formline",
    -- currency
    "currencygive", "givecurrency", "currencytake", "takecurrency"]

end SkillAtlas.Packaged
