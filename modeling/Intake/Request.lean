import Intake.Wire.Record

/-!
# Requests to a data source

A request names what is asked for by a URI and parameters. It is also the key under which an archive
keeps the response: two requests with the same URI and the same parameters are one.
-/

namespace Intake

/-- A request to a data source. -/
structure Request where
  uri : String
  params : Keyed Json := .empty
deriving BEq

namespace Request

/-- The request with one more parameter. -/
def withParam (r : Request) (key : String) (value : Json) : Request :=
  { r with params := r.params.insert key value }

/-- The key of a request in an archive: the URI, and after a question mark the parameters if there
are any, in the order of their names. -/
def archiveKey (r : Request) : String :=
  if r.params.isEmpty then r.uri else r.uri ++ "?" ++ (Json.object r.params).written

/-- The document of a request. -/
def wire : Wire Request :=
  ((Fields.cons (.required "uri" .text) <|
    .last (.defaulted "params" .object .empty)).record "Request").via
    (fun (uri, params) => { uri, params })
    (fun r => (r.uri, r.params))

end Request

end Intake
