import Intake.Text.Blank

/-!
# Settings of a worker

A worker is told by variables of its environment where the queue server is, which queue items go
to by default and how the metadata of jobs is named there. The last two fall back to their
defaults also where the variable holds nothing but blanks.
-/

namespace Intake

/-- The settings of a worker. -/
structure RuntimeConfig where
  /-- The server of the queues and of the metadata. -/
  redisUrl : String := "redis://127.0.0.1:6379"
  /-- The queue for items where a request names none. -/
  itemsQueue : String := "items"
  /-- What the keys of job metadata begin with. -/
  metaPrefix : String := "harvest:job:"
deriving DecidableEq

namespace RuntimeConfig

/-- The value of a variable that holds something. -/
def nonBlank (value : Option String) : Option String :=
  value.filter fun v => !Text.isAllBlank v

/-- The settings by a look-up of variables. -/
def ofLookup (lookup : String → Option String) : RuntimeConfig :=
  let defaults : RuntimeConfig := {}
  { redisUrl := (lookup "HARVEST_REDIS_URL").getD defaults.redisUrl
    itemsQueue := (nonBlank (lookup "HARVEST_ITEMS_QUEUE")).getD defaults.itemsQueue
    metaPrefix := (nonBlank (lookup "HARVEST_META_PREFIX")).getD defaults.metaPrefix }

/-- The settings with another server. -/
def withRedisUrl (c : RuntimeConfig) (url : String) : RuntimeConfig := { c with redisUrl := url }

/-- The settings with another queue. -/
def withItemsQueue (c : RuntimeConfig) (queue : String) : RuntimeConfig :=
  { c with itemsQueue := queue }

/-- The settings with other keys of job metadata. -/
def withMetaPrefix (c : RuntimeConfig) (keys : String) : RuntimeConfig :=
  { c with metaPrefix := keys }

end RuntimeConfig

end Intake
