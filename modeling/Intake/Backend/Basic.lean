import Intake.Archive.Metadata
import Intake.Backend.Fetch

/-!
# Backends

A backend is known by its name. It says which categories of items it has and what it can do, and
from arguments it builds an instance: where the items come from, how they are fetched, and the
transport that answers requests at the data source itself.

A transport may remember: its answer to a request may depend on the requests before.
-/

namespace Intake

/-- What a backend can do. -/
structure Capabilities where
  /-- Responses can be recorded and replayed. -/
  archiving : Bool := false
  /-- A fetch that failed can be taken up at its last watermark. -/
  resuming : Bool := false
deriving DecidableEq

namespace Capabilities

/-- No capability. -/
def none : Capabilities := {}

/-- Every capability. -/
def all : Capabilities := ⟨true, true⟩

end Capabilities

/-- What a data source answers to a request after earlier ones, which are given from the latest to
the first. -/
abbrev Transport := List Request → Request → Except BackendError String

/-- A backend ready to fetch. -/
structure BackendInstance where
  /-- Where the items come from. -/
  origin : String
  fetch : Fetch
  transport : Transport

/-- A backend. -/
structure Backend where
  name : String
  version : String
  categories : List String
  capabilities : Capabilities
  build : BackendArgs → Except BackendError BackendInstance

namespace Backend

/-- Whether the backend has items of a category. -/
def supportsCategory (b : Backend) (category : String) : Bool := b.categories.contains category

end Backend

end Intake
