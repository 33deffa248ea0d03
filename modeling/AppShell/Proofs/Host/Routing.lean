/-
AppShell/Proofs/Host/Routing.lean

What the host answers, by the path of a request.

The segments of a path determine it and are determined by it
(`Route.segments_eq_iff`), so that the two routes that matter to a session can be
told by the text of the path: `/api/shutdown` leads to the route that stops the
host, and `/auth/` with one more segment to the one that trades tokens, with or
without the application around the host (`Routed`).

An answer stops the host only on the former, and only if the request acts and
holds the token (`shutdown_route`); it sets cookies only on the latter
(`setCookies_route`).
-/
import AppShell.Host.Routes
import AppShell.Proofs.Text

namespace AppShell.Host

open AppShell.Text

/-! ### Paths -/

/-- No piece holds the character at which a list is divided. -/
theorem not_mem_of_mem_splitOn {c : Char} {cs piece : List Char} (h : piece ∈ cs.splitOn c) :
    c ∉ piece := by
  induction cs generalizing piece with
  | nil =>
    rw [List.mem_singleton.1 h]
    exact List.not_mem_nil
  | cons d cs ih =>
    rw [List.splitOn_cons_eq_if_modifyHead] at h
    by_cases hd : d = c
    · -- a new piece begins behind the character, and is empty so far
      rw [if_pos (beq_iff_eq.2 hd)] at h
      rcases List.mem_cons.1 h with rfl | h
      · exact List.not_mem_nil
      · exact ih h
    · rw [if_neg (fun he => hd (beq_iff_eq.1 he))] at h
      rcases hs : cs.splitOn c with - | ⟨first, rest⟩
      · exact absurd hs (List.splitOn_ne_nil c cs)
      rw [hs] at h ih
      rcases List.mem_cons.1 h with rfl | h
      · -- the first piece is one longer, and its new character is another one
        intro hmem
        rcases List.mem_cons.1 hmem with rfl | hmem
        · exact hd rfl
        · exact ih List.mem_cons_self hmem
      · exact ih (List.mem_cons_of_mem _ h)

namespace Route

/-- A path has given segments if it consists of them, with slashes between. -/
theorem segments_eq_iff {target : String} {names : List String} (hne : names ≠ []) :
    segments target = names ↔ Target.path target = ['/'].intercalate (names.map String.toList) ∧
      ∀ name ∈ names, '/' ∉ name.toList := by
  rw [segments, pieces_eq_splitOn]
  constructor
  · rintro rfl
    constructor
    · rw [List.map_map, show (String.toList ∘ String.ofList) = id from
        funext fun _ => String.toList_ofList, List.map_id, List.intercalate_splitOn]
    · intro name hname
      obtain ⟨piece, hpiece, rfl⟩ := List.mem_map.1 hname
      rw [String.toList_ofList]
      exact not_mem_of_mem_splitOn hpiece
  · rintro ⟨hpath, hslash⟩
    rw [hpath, List.splitOn_intercalate '/' ?_ (fun h => hne (List.map_eq_nil_iff.1 h)),
      List.map_map, show (String.ofList ∘ String.toList) = id from
        funext fun _ => String.ofList_toList, List.map_id]
    intro piece hpiece
    obtain ⟨name, hname, rfl⟩ := List.mem_map.1 hpiece
    exact hslash name hname

/-- The path of the route that stops the host. -/
def shutdownPath : List Char := "/api/shutdown".toList

/-- The path of the route that trades tokens, up to its last segment. -/
def linkPrefix : List Char := "/auth/".toList

/-- The last segment of a target that leads to the route that trades tokens. -/
def linkSegment? (target : String) : Option String :=
  let segment := (Target.path target).drop linkPrefix.length
  if linkPrefix.isPrefixOf (Target.path target) ∧ segment ≠ [] ∧ '/' ∉ segment then
    some (String.ofList segment)
  else none

/-- A target is a link when exactly one segment, not empty, stands behind the prefix. -/
theorem linkSegment?_eq_some_iff {target segment : String} :
    linkSegment? target = some segment ↔
      Target.path target = linkPrefix ++ segment.toList ∧ segment ≠ "" ∧ '/' ∉ segment.toList := by
  rw [linkSegment?]
  constructor
  · intro h
    obtain ⟨⟨hfirst, hne, hslash⟩, hsegment⟩ := Option.ite_none_right_eq_some.1 h
    obtain ⟨rest, hrest⟩ := List.isPrefixOf_iff_prefix.1 hfirst
    rw [← hrest, List.drop_left] at hne hslash hsegment
    obtain rfl := Option.some.inj hsegment
    rw [String.toList_ofList]
    exact ⟨hrest.symm, fun he => hne (String.ofList_eq_empty_iff.1 he), hslash⟩
  · rintro ⟨hpath, hne, hslash⟩
    rw [hpath, List.drop_left, String.ofList_toList]
    refine if_pos ⟨List.isPrefixOf_iff_prefix.2 ⟨_, rfl⟩, fun he => hne ?_, hslash⟩
    exact String.toList_eq_nil_iff.1 he

/-- The path that stops the host is no link. -/
theorem linkSegment?_of_shutdown {target : String} (h : Target.path target = shutdownPath) :
    linkSegment? target = none := by
  rw [linkSegment?, h]
  rfl

/-- The host is stopped through one path only. -/
theorem ofHost?_eq_shutdown_iff {target : String} :
    ofHost? target = some .shutdown ↔ Target.path target = shutdownPath := by
  have hsegments : segments target = ["", "api", "shutdown"] ↔ Target.path target = shutdownPath := by
    rw [segments_eq_iff (List.cons_ne_nil _ _)]
    exact and_iff_left (by decide)
  rw [← hsegments, ofHost?]
  split <;> simp_all

/-- The host takes a link for what the reader of links finds in it. -/
theorem ofHost?_eq_auth_iff {target segment : String} :
    ofHost? target = some (.auth segment) ↔ linkSegment? target = some segment := by
  have hpath : ['/'].intercalate (["", "auth", segment].map String.toList) =
      linkPrefix ++ segment.toList := by
    simp only [List.map_cons, List.map_nil, List.intercalate_cons_cons,
      List.intercalate_singleton, ← List.append_assoc]
    rfl
  have hsegments : segments target = ["", "auth", segment] ↔
      Target.path target = linkPrefix ++ segment.toList ∧ '/' ∉ segment.toList := by
    rw [segments_eq_iff (List.cons_ne_nil _ _), hpath]
    simp
  rw [linkSegment?_eq_some_iff, and_left_comm, ← hsegments, ofHost?]
  split
  · next h => simp [h]
  · next last h =>
    rw [h, Option.ite_none_left_eq_some]
    refine ⟨fun ⟨hne, he⟩ => ?_, fun ⟨hne, he⟩ => ?_⟩
    · cases he
      exact ⟨hne, rfl⟩
    · cases he
      exact ⟨hne, rfl⟩
  · next h => simp [h]
  · next hhealth hauth hshutdown => simpa using fun _ => hauth segment

/-- The application leads to the routes of the host on the same paths. -/
theorem ofApp?_eq_auth_iff {target segment : String} :
    ofApp? target = some (.auth segment) ↔ ofHost? target = some (.auth segment) := by
  rw [ofApp?, ofHost?]
  split
  · next h => simp [h]
  · next h => simp [h]
  · next h => simp [h]
  · rfl

/-- Both routers stop through the same targets. -/
theorem ofApp?_eq_shutdown_iff {target : String} :
    ofApp? target = some .shutdown ↔ ofHost? target = some .shutdown := by
  rw [ofApp?, ofHost?]
  split
  · next h => simp [h]
  · next h => simp [h]
  · next h => simp [h]
  · rfl

end Route

/-- A route, or none, on which the text of a path leads to what matters to a session. -/
structure Routed (target : String) (route? : Option Route) : Prop where
  link : ∀ segment, route? = some (.auth segment) ↔ Route.linkSegment? target = some segment
  shutdown : route? = some .shutdown ↔ Target.path target = Route.shutdownPath

/-- The host's router decides as the table of routes says. -/
theorem routed_ofHost? (target : String) : Routed target (Route.ofHost? target) :=
  ⟨fun _ => Route.ofHost?_eq_auth_iff, Route.ofHost?_eq_shutdown_iff⟩

/-- The app's router decides as the table of routes says. -/
theorem routed_ofApp? (target : String) : Routed target (Route.ofApp? target) :=
  ⟨fun _ => Route.ofApp?_eq_auth_iff.trans Route.ofHost?_eq_auth_iff,
    Route.ofApp?_eq_shutdown_iff.trans Route.ofHost?_eq_shutdown_iff⟩

/-! ### Answers -/

/-- The lines of an answer that set cookies. -/
def Response.setCookies (r : Response) : List String :=
  (r.headers.filter (·.1 == "set-cookie")).map Prod.snd

/-- The answer of a route, or of a path that leads nowhere. -/
def answerRoute? (siteRoot : Option String) (token : String) (r : Request)
    (route? : Option Route) : Response :=
  (route?.map (answerRoute siteRoot token r)).getD .notFound

variable {siteRoot : Option String} {token : String} {r : Request} {route? : Option Route}

/-- An answer that neither stops the host nor sets a cookie. -/
structure Response.Quiet (answer : Response) : Prop where
  shutdown : answer.shutdown = false
  setCookies : answer.setCookies = []

/-- An answer that sets no cookie and stops nothing does neither when it is given to a method that
only reads. -/
theorem Response.Quiet.reading {answer : Response} (h : answer.Quiet) (method : String) :
    (reading method answer).Quiet := by
  rw [Host.reading]
  split
  · exact h
  · split
    · exact ⟨h.shutdown, h.setCookies⟩
    · exact ⟨rfl, rfl⟩

/-- A file of the site sets no cookie and stops nothing. -/
theorem quiet_asset (address : String) : (asset siteRoot address).Quiet := by
  rw [asset]
  split
  · split <;> exact ⟨rfl, rfl⟩
  · exact ⟨rfl, rfl⟩

/-- The routes that matter to no session are answered quietly. -/
theorem quiet_route (hlink : ∀ segment, route? ≠ some (.auth segment))
    (hstop : route? ≠ some .shutdown) : (answerRoute? siteRoot token r route?).Quiet := by
  rcases route? with - | route
  · exact ⟨rfl, rfl⟩
  cases route with
  | health => exact .reading ⟨rfl, rfl⟩ _
  | auth segment => exact absurd rfl (hlink segment)
  | shutdown => exact absurd rfl hstop
  | home => exact .reading ⟨rfl, rfl⟩ _
  | authError => exact .reading ⟨rfl, rfl⟩ _
  | asset address => exact .reading (quiet_asset address) _

/-- No link stops the host. -/
theorem shutdown_link (method segment : String) :
    (reading method (authSegment token segment)).shutdown = false := by
  have hsegment : (authSegment token segment).shutdown = false := by
    rw [authSegment]
    split
    · rw [authenticate]
      split <;> rfl
    · rfl
  rw [reading]
  split
  · exact hsegment
  · split
    · exact hsegment
    · rfl

/-- The host stops for the right method with the right cookie, and for nothing else. -/
theorem shutdown_stop :
    (stop token r).shutdown = true ↔ r.method = actMethod ∧ authorized token r = true := by
  by_cases hmethod : r.method = actMethod
  · cases hauthorized : authorized token r with
    | true => simp [stop, hmethod, hauthorized]
    | false => simp [stop, hmethod, hauthorized, Response.ofStatus]
  · cases hauthorized : authorized token r with
    | true => simp [stop, hmethod, hauthorized, Response.wrongMethod, Response.ofStatus]
    | false => simp [stop, hmethod, hauthorized, Response.wrongMethod, Response.ofStatus]

/-- Stopping the host sets no cookie. -/
theorem setCookies_stop : (stop token r).setCookies = [] := by
  rw [stop]
  split
  · split <;> rfl
  · split <;> rfl

/-- Only the route that stops the host does so, and only if the request acts and holds the token. -/
theorem shutdown_route : (answerRoute? siteRoot token r route?).shutdown = true ↔
    route? = some .shutdown ∧ r.method = actMethod ∧ authorized token r = true := by
  by_cases hstop : route? = some .shutdown
  · subst hstop
    exact shutdown_stop.trans (and_iff_right rfl).symm
  -- a link may set cookies, but stops the host no more than the quiet routes do
  have hfalse : (answerRoute? siteRoot token r route?).shutdown = false := by
    by_cases hlink : ∃ segment, route? = some (.auth segment)
    · obtain ⟨segment, rfl⟩ := hlink
      exact shutdown_link _ segment
    · exact (quiet_route (fun segment h => hlink ⟨segment, h⟩) hstop).shutdown
  rw [hfalse]
  exact ⟨nofun, fun h => absurd h.1 hstop⟩

/-- Only the route that trades tokens sets cookies. -/
theorem setCookies_route (hlink : ∀ segment, route? ≠ some (.auth segment)) :
    (answerRoute? siteRoot token r route?).setCookies = [] := by
  by_cases hstop : route? = some .shutdown
  · subst hstop
    exact setCookies_stop
  · exact (quiet_route hlink hstop).setCookies

/-! ### The token -/

/-- Where there is a token, it alone is accepted. -/
theorem accepts_iff (htoken : token ≠ "") {candidate : String} :
    accepts token candidate = true ↔ candidate = token := by
  rw [accepts, Bool.and_eq_true, bne_iff_ne, beq_iff_eq]
  exact ⟨And.right, fun h => ⟨h ▸ htoken, h⟩⟩

/-- A request is authorized when the first cookie of the token's name holds the token. -/
theorem authorized_iff (htoken : token ≠ "") :
    authorized token r = true ↔ Cookie.find? Cookie.tokenName r.cookies = some token := by
  rw [authorized]
  split
  · next value h => rw [accepts_iff htoken, h, Option.some.injEq]
  · next h => simp [h]

/-- An answer to a link: a redirect that stores the token if the link names it, and takes it away
if the link names something else; or a refusal without a cookie. -/
def Response.Trades (answer : Response) (token segment : String) : Prop :=
  (∃ candidate, Percent.decode? segment = some candidate ∧ answer.status = 302 ∧
    answer.setCookies =
      [if candidate = token then Cookie.storeToken token else Cookie.clearToken]) ∨
  (answer.status ≠ 302 ∧ answer.setCookies = [])

/-- A link trades exactly the token's segment for the cookie. -/
theorem trades_authSegment (htoken : token ≠ "") (segment : String) :
    (authSegment token segment).Trades token segment := by
  rcases hdecode : Percent.decode? segment with - | candidate
  · have hanswer : authSegment token segment = unreadableSegment := by
      rw [authSegment, hdecode]
    rw [hanswer]
    exact .inr ⟨by decide, rfl⟩
  · have hanswer : authSegment token segment = authenticate token candidate := by
      rw [authSegment, hdecode]
    rw [hanswer]
    refine .inl ⟨candidate, hdecode, ?_⟩
    by_cases hcandidate : candidate = token
    · rw [authenticate, if_pos ((accepts_iff htoken).2 hcandidate), if_pos hcandidate, hcandidate]
      exact ⟨rfl, rfl⟩
    · rw [authenticate, if_neg (fun h => hcandidate ((accepts_iff htoken).1 h)), if_neg hcandidate]
      exact ⟨rfl, rfl⟩

/-- The route that trades tokens does so for a request that reads, and refuses any other. -/
theorem trades_route (htoken : token ≠ "") (segment : String) :
    (answerRoute? siteRoot token r (some (.auth segment))).Trades token segment := by
  show (reading r.method (authSegment token segment)).Trades token segment
  have htrades := trades_authSegment htoken segment
  rw [reading]
  split
  · exact htrades
  · split
    · exact htrades
    · exact .inr ⟨by decide, rfl⟩

/-- Without the token a request to stop is refused. -/
theorem status_route_of_unauthorized (h : authorized token r = false) :
    (answerRoute? siteRoot token r (some .shutdown)).status = 401 := by
  show (stop token r).status = 401
  rw [stop, h, if_neg Bool.false_ne_true]
  split <;> rfl

/-! ### Hosts -/

/-- The host by itself, or the application around it. -/
def Serves (token : String) (host : Request → Response) : Prop :=
  host = answer token ∨ ∃ siteRoot, host = answerApp siteRoot token

/-- The policies set no cookie. -/
theorem setCookies_withPolicies (a : Response) :
    ({ a with headers := withPolicies a.headers } : Response).setCookies = a.setCookies := by
  -- no policy is a line that sets a cookie, and none takes the place of one
  have hpolicies : policies.filter (·.1 == "set-cookie") = [] := by decide
  have hnames : "set-cookie" ∉ policies.map Prod.fst := by decide
  simp only [Response.setCookies, withPolicies, List.filter_append, List.filter_filter, hpolicies,
    List.append_nil]
  refine congrArg _ (List.filter_congr fun h _ => ?_)
  by_cases hname : h.1 = "set-cookie"
  · simp [hname, hnames]
  · simp [hname]

variable {host : Request → Response}

namespace Serves

/-- A host answers what one of the routes does that the path leads to, but for other headers than
those that set cookies. -/
theorem exists_route (h : Serves token host) (r : Request) :
    ∃ siteRoot route?, Routed r.target route? ∧
      (host r).status = (answerRoute? siteRoot token r route?).status ∧
      (host r).shutdown = (answerRoute? siteRoot token r route?).shutdown ∧
      (host r).setCookies = (answerRoute? siteRoot token r route?).setCookies := by
  rcases h with rfl | ⟨siteRoot, rfl⟩
  · exact ⟨none, _, routed_ofHost? r.target, rfl, rfl, rfl⟩
  · exact ⟨siteRoot, _, routed_ofApp? r.target, rfl, rfl, setCookies_withPolicies _⟩

/-- A host is stopped by the requests to do so that hold its token, and by no others. -/
theorem shutdown_iff (h : Serves token host) (htoken : token ≠ "") (r : Request) :
    (host r).shutdown = true ↔ r.method = actMethod ∧ Target.path r.target = Route.shutdownPath ∧
      Cookie.find? Cookie.tokenName r.cookies = some token := by
  obtain ⟨siteRoot, route?, hrouted, -, hshutdown, -⟩ := h.exists_route r
  rw [hshutdown, shutdown_route, hrouted.shutdown, authorized_iff htoken, and_left_comm]

/-- A host refuses a request to its route to stop that does not hold its token. -/
theorem refuses (h : Serves token host) (htoken : token ≠ "") {r : Request}
    (hpath : Target.path r.target = Route.shutdownPath)
    (hcookie : Cookie.find? Cookie.tokenName r.cookies ≠ some token) : (host r).status = 401 := by
  obtain ⟨siteRoot, route?, hrouted, hstatus, -, -⟩ := h.exists_route r
  obtain rfl := hrouted.shutdown.2 hpath
  rw [hstatus]
  refine status_route_of_unauthorized (Bool.eq_false_iff.2 fun hauthorized => ?_)
  exact hcookie ((authorized_iff htoken).1 hauthorized)

/-- A host trades tokens on the links to do so. -/
theorem trades (h : Serves token host) (htoken : token ≠ "") {r : Request} {segment : String}
    (hlink : Route.linkSegment? r.target = some segment) : (host r).Trades token segment := by
  obtain ⟨siteRoot, route?, hrouted, hstatus, -, hcookies⟩ := h.exists_route r
  obtain rfl := (hrouted.link segment).2 hlink
  have htrades : (answerRoute? siteRoot token r _).Trades token segment :=
    trades_route htoken segment
  rwa [Response.Trades, ← hstatus, ← hcookies] at htrades

/-- A link that can be read is answered with a redirect. -/
theorem redirects (h : Serves token host) {r : Request} {segment candidate : String}
    (hlink : Route.linkSegment? r.target = some segment)
    (hdecode : Percent.decode? segment = some candidate) (hmethod : r.method = "GET") :
    (host r).status = 302 := by
  obtain ⟨siteRoot, route?, hrouted, hstatus, -, -⟩ := h.exists_route r
  obtain rfl := (hrouted.link segment).2 hlink
  rw [hstatus]
  show (reading r.method (authSegment token segment)).status = 302
  simp only [reading, hmethod, if_true, authSegment, hdecode, authenticate]
  split <;> rfl

/-- A host sets cookies on these links only. -/
theorem setCookies_eq_nil (h : Serves token host) {r : Request}
    (hlink : Route.linkSegment? r.target = none) : (host r).setCookies = [] := by
  obtain ⟨siteRoot, route?, hrouted, -, -, hcookies⟩ := h.exists_route r
  rw [hcookies]
  refine setCookies_route fun segment hroute => ?_
  exact nomatch hlink.symm.trans ((hrouted.link segment).1 hroute)

end Serves

end AppShell.Host
