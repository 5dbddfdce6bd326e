import TableStore.Proofs.Endpoint.Bodies
import TableStore.Proofs.Session.Requests

/-!
# Serving requests

Requests are handled one after the other on one catalog. A request is served if it is for the route
there is and its body holds a statement; any other is refused, and might as well not have come: it
changes neither the catalog nor what others are told. So what requests with statements are told is
what a session tells that runs these statements. A query in the target of a request is not looked at.

* `Endpoint.serve` — the catalog after requests, and the responses to them.
* `Endpoint.path_query`, `Endpoint.path_of_plain` — the path of a target with a query, and without one.
* `Endpoint.Request.Asks`, `Endpoint.Request.Served` — requests that are served.
* `Endpoint.handle_query`, `Endpoint.handle_of_asks`, `Endpoint.fst_handle_of_not_served` — one request.
* `Endpoint.serve_filter`, `Endpoint.serve_of_asks` — any number of them.
* `Endpoint.requests_served` — the endpoint as a whole.
-/

namespace TableStore.Endpoint

/-- The catalog after requests that are handled one after the other, and the responses to them. -/
def serve (catalog : Catalog) : List Request → Catalog × List Response
  | [] => (catalog, [])
  | request :: requests =>
    let first := handle catalog request
    let rest := serve first.1 requests
    (rest.1, first.2 :: rest.2)

/-! ## Targets with a query -/

/-- A query stands behind the authority, and so what follows the authority is found without it. -/
theorem afterAuthority?_query (target query : List Char) :
    afterAuthority? (target ++ '?' :: query) =
      (afterAuthority? target).map (· ++ '?' :: query) := by
  have hscheme := takeWhile_dropWhile_append
    (p := fun c => c != ':' && inAuthority c) (x := '?') rfl target query
  have hauthority := fun rest =>
    takeWhile_dropWhile_append (p := inAuthority) (x := '?') rfl rest query
  unfold afterAuthority?
  rw [hscheme.2]
  generalize target.dropWhile (fun c => c != ':' && inAuthority c) = rest
  -- the colon and the two slashes stand before the query, or nowhere
  rcases rest with _ | ⟨a, _ | ⟨b, _ | ⟨c, rest⟩⟩⟩
  · rfl
  · by_cases ha : a = ':' <;> simp [ha]
  · by_cases ha : a = ':' <;> by_cases hb : b = '/' <;> simp [ha, hb]
  by_cases hmarks : a = ':' ∧ b = '/' ∧ c = '/'
  · obtain ⟨rfl, rfl, rfl⟩ := hmarks
    simp only [List.cons_append, hauthority]
    split <;> rfl
  · rw [not_and_or, not_and_or] at hmarks
    rcases hmarks with h | h | h <;> simp [h]

/-- What follows a question mark in a target is not part of the path. -/
theorem path_query (target query : List Char) :
    path (target ++ '?' :: query) = path target := by
  have hstop := fun path =>
    (takeWhile_dropWhile_append (p := inPath) (x := '?') rfl path query).1
  have hhead : (target ++ '?' :: query).head? = some '/' ↔ target.head? = some '/' := by
    cases target <;> simp
  unfold path
  simp only [hhead, hstop, afterAuthority?_query]
  cases afterAuthority? target with
  | none => rfl
  | some rest => simp only [Option.map_some, Option.getD_some, hstop]

/-- A target that starts with a slash and has neither a query nor a fragment is its own path. -/
theorem path_of_plain {target : List Char} (hstart : target.head? = some '/')
    (hplain : ∀ c ∈ target, c ≠ '?' ∧ c ≠ '#') : path target = target := by
  rw [path, if_pos hstart, List.takeWhile_eq_self_iff]
  intro c hc
  obtain ⟨hquery, hfragment⟩ := hplain c hc
  simp [inPath, hquery, hfragment]

namespace Request

theorem path_query (method target query : String) (body : List UInt8) :
    path ⟨method, target ++ "?" ++ query, body⟩ = path ⟨method, target, body⟩ := by
  have htarget : (target ++ "?" ++ query).toList = target.toList ++ '?' :: query.toList := by
    simp
  unfold path
  rw [htarget, Endpoint.path_query]

/-- A request is for the route there is. -/
def IsRouted (request : Request) : Prop :=
  request.method = "POST" ∧ request.path = "/api/query"

/-- A request asks to run a statement. -/
structure Asks (request : Request) (text : String) : Prop where
  routed : request.IsRouted
  body : Holds request.body text

/-- A request is served: it asks to run some statement. -/
def Served (request : Request) : Prop :=
  ∃ text, request.Asks text

/-- A request `POST /api/query` with the body `{"sql": …}`. -/
structure Queries (request : Request) (text : String) : Prop where
  routed : request.IsRouted
  body : QueryBody text request.body

theorem isQuery_iff {request : Request} : request.isQuery = true ↔ request.IsRouted := by
  rw [isQuery, Bool.and_eq_true, beq_iff_eq, beq_iff_eq, IsRouted]

theorem served_iff {request : Request} :
    request.Served ↔ request.isQuery = true ∧ (statement? request.body).isSome = true := by
  rw [isQuery_iff, Option.isSome_iff_exists]
  constructor
  · rintro ⟨text, hrouted, hbody⟩
    exact ⟨hrouted, text, statement?_eq_some_iff.mpr hbody⟩
  · rintro ⟨hrouted, text, hbody⟩
    exact ⟨text, hrouted, statement?_eq_some_iff.mp hbody⟩

instance (request : Request) : Decidable request.Served :=
  decidable_of_iff _ served_iff.symm

/-- The request to run a statement, with its text as it is written. -/
def ofText (text : String) : Request :=
  ⟨"POST", "/api/query", Utf8.bytes (Json.write .compact (.object [("sql", .text text)]))⟩

theorem queries_ofText (text : String) : (ofText text).Queries text := by
  have hroute : (ofText text).path = "/api/query" := by
    show String.ofList (Endpoint.path "/api/query".toList) = "/api/query"
    decide
  have hkey : "\x7b\"sql\":".toList = '\x7b' :: (Json.quote "sql" ++ [':']) := by decide
  refine ⟨⟨rfl, hroute⟩, .intro (List.forall_mem_nil _) (Json.literal_quote text) ?_⟩
  show Utf8.symbols (Utf8.bytes _) = _
  rw [Utf8.symbols_bytes, Json.write, String.toList_ofList, hkey]
  simp [Json.print, Json.moreMembers, Json.Layout.compact]

theorem Queries.asks {request : Request} {text : String} (h : request.Queries text) :
    request.Asks text :=
  ⟨h.routed, h.body.holds⟩

end Request

/-! ## One request -/

section

variable {catalog : Catalog} {request : Request} {text : String}

/-- A query in the target makes no difference. -/
theorem handle_query (catalog : Catalog) (method target query : String) (body : List UInt8) :
    handle catalog ⟨method, target ++ "?" ++ query, body⟩ =
      handle catalog ⟨method, target, body⟩ := by
  unfold handle Request.isQuery
  rw [Request.path_query]

/-- A request for another route is not found. -/
theorem handle_of_not_routed (h : ¬request.IsRouted) :
    handle catalog request = (catalog,
      ⟨404, "application/json", "\x7b\"success\":false,\"message\":\"ERROR: not found\"\x7d"⟩) := by
  rw [← Request.isQuery_iff] at h
  rw [handle, if_neg h]
  exact congrArg (Prod.mk catalog) (by decide)

/-- A request for the route whose body holds no statement is told what is expected. -/
theorem handle_of_not_holds (hrouted : request.IsRouted)
    (hbody : ¬∃ text, Holds request.body text) :
    handle catalog request = (catalog, ⟨400, "application/json",
      "\x7b\"success\":false,\"message\":\"ERROR: expected \x7b\\\"sql\\\": string\x7d\"\x7d"⟩) := by
  have hnone : statement? request.body = none := by
    rw [Option.eq_none_iff_forall_ne_some]
    exact fun text htext => hbody ⟨text, statement?_eq_some_iff.mp htext⟩
  rw [handle, if_pos (Request.isQuery_iff.mpr hrouted), hnone]
  exact congrArg (Prod.mk catalog) (by decide)

/-- A request that asks to run a statement is told what comes of it. -/
theorem handle_of_asks (h : request.Asks text) :
    handle catalog request =
      ((catalog.execute text).catalog, .ofReply 200 (catalog.execute text).reply) := by
  rw [handle, if_pos (Request.isQuery_iff.mpr h.routed), statement?_eq_some_iff.mpr h.body]

/-- A request that is refused changes nothing. -/
theorem fst_handle_of_not_served (h : ¬request.Served) : (handle catalog request).1 = catalog := by
  by_cases hrouted : request.IsRouted
  · have hbody : ¬∃ text, Holds request.body text := fun ⟨text, hholds⟩ => h ⟨text, hrouted, hholds⟩
    rw [handle_of_not_holds hrouted hbody]
  · rw [handle_of_not_routed hrouted]

end

/-! ## Any number of requests -/

theorem serve_cons (catalog : Catalog) (request : Request) (requests : List Request) :
    serve catalog (request :: requests) =
      ((serve (handle catalog request).1 requests).1,
        (handle catalog request).2 :: (serve (handle catalog request).1 requests).2) :=
  rfl

theorem length_serve (catalog : Catalog) (requests : List Request) :
    (serve catalog requests).2.length = requests.length := by
  induction requests generalizing catalog with
  | nil => rfl
  | cons request requests ih => rw [serve_cons, List.length_cons, ih, List.length_cons]

/-- Without the requests that are refused, the others are told the same and leave the same
catalog. -/
theorem serve_filter (catalog : Catalog) (requests : List Request) :
    (serve catalog (requests.filter (·.Served))).1 = (serve catalog requests).1 ∧
      (requests.filter (·.Served)).zip (serve catalog (requests.filter (·.Served))).2 =
        (requests.zip (serve catalog requests).2).filter (·.1.Served) := by
  induction requests generalizing catalog with
  | nil => exact ⟨rfl, rfl⟩
  | cons request requests ih =>
    by_cases hserved : request.Served
    · obtain ⟨hcatalog, hresponses⟩ := ih (handle catalog request).1
      simp only [List.filter_cons, hserved, decide_true, ↓reduceIte, serve_cons,
        List.zip_cons_cons]
      exact ⟨hcatalog, congrArg (List.cons _) hresponses⟩
    · -- the next request finds the catalog as this one has found it
      obtain ⟨hcatalog, hresponses⟩ := ih catalog
      simp only [List.filter_cons, hserved, decide_false, Bool.false_eq_true, ↓reduceIte,
        serve_cons, List.zip_cons_cons, fst_handle_of_not_served hserved]
      exact ⟨hcatalog, hresponses⟩

/-- Requests that ask to run statements are told what a session tells that runs them. -/
theorem serve_of_asks {requests : List Request} {texts : List String}
    (h : List.Forall₂ Request.Asks requests texts) (catalog : Catalog) :
    serve catalog requests =
      (catalog.executeAll texts, (catalog.replies texts).map (.ofReply 200)) := by
  induction h generalizing catalog with
  | nil => rfl
  | cons hasks _ ih =>
    rw [serve_cons, handle_of_asks hasks, ih]
    rfl

/-- The endpoint as a whole. A request for another route is answered with status 404, and one whose
body holds no statement with status 400, and neither changes the catalog. A query in the target makes
no difference to a request. Without the requests that are refused the others are told the same, and
the catalog is the same in the end. Requests that hold statements are answered with status 200 and the
replies that the statements have, one after the other. -/
theorem requests_served :
    (∀ (catalog : Catalog) (request : Request),
      ¬(request.method = "POST" ∧ request.path = "/api/query") →
        handle catalog request = (catalog,
          ⟨404, "application/json", "\x7b\"success\":false,\"message\":\"ERROR: not found\"\x7d"⟩)) ∧
    (∀ (catalog : Catalog) (request : Request),
      request.method = "POST" → request.path = "/api/query" →
        (¬∃ text, Holds request.body text) →
          handle catalog request = (catalog, ⟨400, "application/json",
            "\x7b\"success\":false,\"message\":\"ERROR: expected \x7b\\\"sql\\\": string\x7d\"\x7d"⟩)) ∧
    (∀ (method target query : String) (body : List UInt8),
      let plain : Request := ⟨method, target, body⟩
      let asked : Request := ⟨method, target ++ "?" ++ query, body⟩
      asked.path = plain.path ∧
        (∀ catalog, handle catalog asked = handle catalog plain) ∧
        (target.toList.head? = some '/' → (∀ c ∈ target.toList, c ≠ '?' ∧ c ≠ '#') →
          plain.path = target)) ∧
    (∀ (catalog : Catalog) (requests : List Request),
      let served := requests.filter fun request => request.Served
      (serve catalog requests).2.length = requests.length ∧
        (serve catalog served).1 = (serve catalog requests).1 ∧
        served.zip (serve catalog served).2 =
          (requests.zip (serve catalog requests).2).filter fun pair => pair.1.Served) ∧
    (∀ (catalog : Catalog) (requests : List Request) (texts : List String),
      List.Forall₂ Request.Queries requests texts →
        serve catalog requests =
          (catalog.executeAll texts, (catalog.replies texts).map fun reply =>
            ⟨200, "application/json", Json.write .compact reply.json⟩)) := by
  refine ⟨?_, ?_, ?_, ?_, ?_⟩
  · intro catalog request hrouted
    exact handle_of_not_routed hrouted
  · intro catalog request hmethod hpath hbody
    exact handle_of_not_holds ⟨hmethod, hpath⟩ hbody
  · intro method target query body plain asked
    refine ⟨Request.path_query method target query body, fun catalog => ?_, fun hstart hplain => ?_⟩
    · exact handle_query catalog method target query body
    · show String.ofList (path target.toList) = target
      rw [path_of_plain hstart hplain, String.ofList_toList]
  · intro catalog requests served
    exact ⟨length_serve catalog requests, serve_filter catalog requests⟩
  · intro catalog requests texts hqueries
    exact serve_of_asks (hqueries.imp fun _ _ hquery => hquery.asks) catalog

/-- A request with another method, one with a query and an empty object, and six statements, one of
them with a quotation mark and a letter that is no ASCII character in a text. -/
theorem requests_served_drop :
    let texts := ["CREATE TABLE t (a TEXT)", "INSERT INTO t VALUES ('\"é')", "SELECT * FROM t",
      "UPDATE t SET a = 'b'", "DELETE FROM t", "DROP TABLE u"]
    handle (.empty "main") ⟨"GET", "/api/query", []⟩ = (.empty "main",
      ⟨404, "application/json", "\x7b\"success\":false,\"message\":\"ERROR: not found\"\x7d"⟩) ∧
    handle (.empty "main") ⟨"POST", "/api/query" ++ "?" ++ "page=1", Utf8.bytes "\x7b\x7d"⟩ =
      (.empty "main", ⟨400, "application/json",
        "\x7b\"success\":false,\"message\":\"ERROR: expected \x7b\\\"sql\\\": string\x7d\"\x7d"⟩) ∧
    serve (.empty "main") (texts.map .ofText) = ((Catalog.empty "main").executeAll texts,
      ["\x7b\"success\":true,\"message\":\"RESULT OK\"\x7d",
        "\x7b\"success\":true,\"rowsAffected\":1,\"message\":\"RESULT OK\"\x7d",
        "\x7b\"success\":true,\"rows\":[\x7b\"a\":\"\\\"é\"\x7d],\"message\":\"RESULT OK\"\x7d",
        "\x7b\"success\":true,\"rowsAffected\":1,\"message\":\"RESULT OK: 1 rows updated\"\x7d",
        "\x7b\"success\":true,\"rowsAffected\":1,\"message\":\"RESULT OK: 1 rows deleted\"\x7d",
        "\x7b\"success\":false,\"message\":\"ERROR: Relation \\\"u\\\" does not exist\"\x7d"].map
        fun body => ⟨200, "application/json", body⟩) := by
  intro texts
  have hempty : statement? (Utf8.bytes "\x7b\x7d") = none := by decide +kernel
  have hbody : ¬∃ text, Holds (Utf8.bytes "\x7b\x7d") text := by
    rintro ⟨text, hholds⟩
    rw [statement?_eq_some_iff.mpr hholds] at hempty
    cases hempty
  have hqueries : List.Forall₂ Request.Queries (texts.map .ofText) texts :=
    List.forall₂_map_left_iff.mpr (List.forall₂_same.mpr fun text _ => Request.queries_ofText text)
  obtain ⟨-, hquery, hplain⟩ :=
    requests_served.2.2.1 "POST" "/api/query" "page=1" (Utf8.bytes "\x7b\x7d")
  refine ⟨requests_served.1 _ _ fun h => absurd h.1 (by decide), ?_, ?_⟩
  · rw [hquery]
    exact requests_served.2.1 _ _ rfl (hplain (by decide) (by simp)) hbody
  · rw [requests_served.2.2.2.2 _ _ _ hqueries]
    exact congrArg (Prod.mk _) (by decide +kernel)

end TableStore.Endpoint
