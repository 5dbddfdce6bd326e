import TableStore.Json.Tree
import TableStore.Session.Run

/-!
# The HTTP endpoint

One route runs statements: `POST /api/query` with a JSON body that holds the statement under the key
`sql`. A statement that fails is still answered with status 200, for the reply tells of the failure.

* `Endpoint.Request`, `Endpoint.Response` — requests and responses.
* `Endpoint.path` — the path in the target of a request.
* `Endpoint.statement?` — the statement in the body of a request.
* `Endpoint.handle` — the response to a request, and the catalog afterwards.
-/

namespace TableStore.Endpoint

/-- A request: its method, the target it names, and the bytes of its body. The target is a path with
the query behind it, or a whole URI, with a scheme and an authority before the path. -/
structure Request where
  method : String
  target : String
  body : List UInt8

/-- Whether a character may stand in a path: a query or a fragment does not start with it. -/
def inPath (c : Char) : Bool :=
  c != '?' && c != '#'

/-- Whether a character may stand in an authority: it ends where the path, the query or the fragment
starts. -/
def inAuthority (c : Char) : Bool :=
  c != '/' && inPath c

/-- What follows the authority of a whole URI. The authority stands behind a scheme, which has no
colon, and `://`; it is not empty. -/
def afterAuthority? (target : List Char) : Option (List Char) :=
  match target.dropWhile fun c => c != ':' && inAuthority c with
  | ':' :: '/' :: '/' :: rest =>
    if (rest.takeWhile inAuthority).isEmpty then none else some (rest.dropWhile inAuthority)
  | _ => none

/-- The path in a target, without the query. A target that neither starts with its path nor is a
whole URI has the empty path. -/
def path (target : List Char) : List Char :=
  if target.head? = some '/' then target.takeWhile inPath
  else ((afterAuthority? target).getD []).takeWhile inPath

/-- The path of a request. -/
def Request.path (request : Request) : String :=
  String.ofList (Endpoint.path request.target.toList)

/-- A response. -/
structure Response where
  status : Nat
  contentType : String
  body : String
  deriving DecidableEq, Repr

/-- A response with a reply as its body. -/
def Response.ofReply (status : Nat) (reply : Reply) : Response :=
  ⟨status, "application/json", Json.write .compact reply.json⟩

/-- The statement in an object: the value of its one member `sql`. The other members are not looked
at, but their keys are texts. -/
def member? (members : List (List Json.Letter × Json (List Json.Letter))) : Option String := do
  let keyed : List (String × Json (List Json.Letter)) ← members.mapM fun (key, value) =>
    (Json.decode? key).map (·, value)
  match keyed.filter (·.1 == "sql") with
  | [(_, .text letters)] => Json.decode? letters
  | _ => none

/-- The statement in a body: an object with a member `sql`, or an array with the statement alone. -/
def statement? (body : List UInt8) : Option String :=
  match Json.read? body with
  | some (.object members) => member? members
  | some (.array [.text letters]) => Json.decode? letters
  | _ => none

/-- Whether a request is for the one route there is. -/
def Request.isQuery (request : Request) : Bool :=
  request.method == "POST" && request.path == "/api/query"

/-- The response to a request, and the catalog afterwards. -/
def handle (catalog : Catalog) (request : Request) : Catalog × Response :=
  if request.isQuery then
    match statement? request.body with
    | some text =>
      let step := catalog.execute text
      (step.catalog, .ofReply 200 step.reply)
    | none => (catalog, .ofReply 400 (.refused "ERROR: expected \x7b\"sql\": string\x7d"))
  else (catalog, .ofReply 404 (.refused "ERROR: not found"))

end TableStore.Endpoint
