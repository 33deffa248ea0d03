/-
AppShell/Proofs/Host/Guarding.lean

What the cookie guards.

A request goes through the route of its path, the guard of that route and the
check of its method before a handler answers it.  To say that none does,
`answerWith` and `answerAppWith` leave the handlers open: the hosts are these with
their own handlers (`answer_eq_answerWith`, `answerApp_eq_answerAppWith`), and an
answer that is the same for all handlers was given by none of them.

The guard belongs to the only route below `/api/` and stands before the check of
the method.  It does not see the paths below `/api/` that lead nowhere
(`not_refused_unknown_path`): these are not found, with or without the cookie
(`answerWith_of_unknown`).

The main statement is `refused_below_api`.
-/
import AppShell.Proofs.Host.Routing

namespace AppShell.Host

open AppShell.Text

/-! ### Paths below `/api/` -/

namespace Route

/-- What the paths of the guarded part of the host start with. -/
def apiPrefix : List Char := "/api/".toList

/-- Whether a target leads below `/api/`, to a route or not. -/
def BelowApi (target : String) : Prop :=
  apiPrefix <+: Target.path target

instance (target : String) : Decidable (BelowApi target) :=
  inferInstanceAs (Decidable (_ <+: _))

theorem BelowApi.segments {target : String} (h : BelowApi target) :
    ∃ names, Route.segments target = "" :: "api" :: names := by
  obtain ⟨rest, hrest⟩ := h
  refine ⟨(pieces '/' rest).map String.ofList, ?_⟩
  rw [Route.segments, ← hrest]
  rfl

/-- Below `/api/` there is one route, and the application adds none. -/
theorem BelowApi.route {target : String} (h : BelowApi target) :
    ofApp? target = ofHost? target ∧
      ofHost? target = if Target.path target = shutdownPath then some .shutdown else none := by
  obtain ⟨names, hnames⟩ := h.segments
  have happ : ofApp? target = ofHost? target := by
    rw [ofApp?, hnames]
    rfl
  refine ⟨happ, ?_⟩
  by_cases hpath : Target.path target = shutdownPath
  · rw [if_pos hpath, ofHost?_eq_shutdown_iff.2 hpath]
  · -- only the segments of the path that stops the host are looked for behind `api`
    have hother : ofHost? target ≠ some .shutdown := mt ofHost?_eq_shutdown_iff.1 hpath
    rw [if_neg hpath]
    rw [ofHost?, hnames] at hother ⊢
    split
    · next he => simp at he
    · next he => simp at he
    · next he => exact absurd (by rw [he]; rfl) hother
    · rfl

end Route

/-! ### Handlers -/

/-- The answer to a request that acts: other methods are refused before the handler. -/
def acting (method : String) (answer : Response) : Response :=
  if method = actMethod then answer else .wrongMethod actMethod

/-- The answer of the guard, which keeps the methods that are allowed behind it. -/
def refusal (method : String) : Response :=
  { acting method (.ofStatus 401) with status := 401 }

/-- The answer of a route whose handler gives the answer `handle route`. -/
def dispatch (handle : Route → Response) (token : String) (r : Request) : Route → Response
  | .shutdown =>
    if authorized token r then acting r.method (handle .shutdown) else refusal r.method
  | route => reading r.method (handle route)

/-- The host with the given handlers. -/
def answerWith (handle : Route → Response) (token : String) (r : Request) : Response :=
  ((Route.ofHost? r.target).map (dispatch handle token r)).getD .notFound

/-- The application with the given handlers. -/
def answerAppWith (handle : Route → Response) (token : String) (r : Request) : Response :=
  let inner := ((Route.ofApp? r.target).map (dispatch handle token r)).getD .notFound
  { inner with headers := withPolicies inner.headers }

/-- The handlers of the host and of the application. -/
def handler (siteRoot : Option String) (token : String) : Route → Response
  | .health => .ofStatus 200
  | .auth segment => authSegment token segment
  | .shutdown => { Response.ofStatus 200 with shutdown := true }
  | .home => .page View.homeDocument
  | .authError => .page View.authErrorDocument
  | .asset address => asset siteRoot address

variable {token : String} {r : Request}

theorem answerRoute_eq_dispatch (siteRoot : Option String) :
    answerRoute siteRoot token r = dispatch (handler siteRoot token) token r := by
  funext route
  cases route with
  | shutdown =>
    show stop token r = _
    rw [stop, dispatch]
    by_cases hmethod : r.method = actMethod
    · simp only [hmethod, if_true, acting, refusal, handler]
      rfl
    · simp only [hmethod, if_false, acting, refusal]
  | health | auth | home | authError | asset => rfl

theorem answer_eq_answerWith (token : String) :
    answer token = answerWith (handler none token) token := by
  funext r
  rw [answer, answerRoute_eq_dispatch, answerWith]

theorem answerApp_eq_answerAppWith (siteRoot : Option String) (token : String) :
    answerApp siteRoot token = answerAppWith (handler siteRoot token) token := by
  funext r
  rw [answerApp, answerRoute_eq_dispatch, answerAppWith]

/-! ### Answers below `/api/` -/

/-- Below `/api/` the application answers as the host does, with its policies. -/
theorem answerAppWith_below_api (hapi : Route.BelowApi r.target) (handle : Route → Response) :
    answerAppWith handle token r =
      { answerWith handle token r with
        headers := withPolicies (answerWith handle token r).headers } := by
  rw [answerAppWith, hapi.route.1]
  rfl

/-- A path that leads nowhere is answered by no handler, whatever the cookies. -/
theorem answerWith_of_unknown (hroute : Route.ofHost? r.target = none)
    (handle : Route → Response) : answerWith handle token r = .notFound := by
  rw [answerWith, hroute, Option.map_none, Option.getD_none]

theorem authorized_eq_false (h : Cookie.find? Cookie.tokenName r.cookies ≠ some token) :
    authorized token r = false := by
  rw [authorized]
  split
  · next value hvalue =>
    have hne : value ≠ token := fun he => h (he ▸ hvalue)
    rw [accepts, beq_eq_false_iff_ne.2 hne, Bool.and_false]
  · rfl

/-- What is answered below `/api/` without the token: the guard of the only route, or nothing. -/
def barred (r : Request) : Response :=
  if Target.path r.target = Route.shutdownPath then refusal r.method else .notFound

theorem answerWith_of_unauthorized (hapi : Route.BelowApi r.target)
    (h : authorized token r = false) (handle : Route → Response) :
    answerWith handle token r = barred r := by
  have hroute := hapi.route.2
  rw [barred]
  by_cases hpath : Target.path r.target = Route.shutdownPath
  · rw [if_pos hpath] at hroute
    rw [if_pos hpath, answerWith, hroute, Option.map_some, Option.getD_some, dispatch, h,
      if_neg Bool.false_ne_true]
  · rw [if_neg hpath] at hroute
    rw [if_neg hpath]
    exact answerWith_of_unknown hroute handle

theorem status_barred (hapi : Route.BelowApi r.target) :
    (barred r).status = if (Route.ofHost? r.target).isSome then 401 else 404 := by
  rw [hapi.route.2, barred]
  by_cases hpath : Target.path r.target = Route.shutdownPath
  · rw [if_pos hpath, if_pos hpath]
    rfl
  · rw [if_neg hpath, if_neg hpath]
    rfl

theorem quiet_barred (r : Request) : (barred r).Quiet := by
  rw [barred, refusal, acting]
  split
  · split <;> exact ⟨rfl, rfl⟩
  · exact ⟨rfl, rfl⟩

/-- What a host does below `/api/` is read off its answer with the handlers left open. -/
theorem Serves.below_api {host : Request → Response} (hserves : Serves token host)
    (hapi : Route.BelowApi r.target) :
    ∃ handle, (host r).status = (answerWith handle token r).status ∧
      (host r).shutdown = (answerWith handle token r).shutdown ∧
      (host r).setCookies = (answerWith handle token r).setCookies := by
  rcases hserves with rfl | ⟨siteRoot, rfl⟩
  · rw [answer_eq_answerWith]
    exact ⟨_, rfl, rfl, rfl⟩
  · rw [answerApp_eq_answerAppWith, answerAppWith_below_api hapi]
    exact ⟨_, rfl, rfl, setCookies_withPolicies _⟩

/-- Below `/api/` no handler answers a request that does not hold the token: the one route that is
there answers 401 to every method, and a path that leads nowhere answers 404.  The latter does so
for every request, whatever cookies it holds. -/
theorem refused_below_api (hapi : Route.BelowApi r.target) :
    ((Route.ofHost? r.target).isSome ↔ Target.path r.target = Route.shutdownPath) ∧
    (Cookie.find? Cookie.tokenName r.cookies ≠ some token → ∀ handle,
      answerWith handle token r = barred r ∧
      answerAppWith handle token r =
        { barred r with headers := withPolicies (barred r).headers }) ∧
    (Route.ofHost? r.target = none → ∀ handle,
      answerWith handle token r = .notFound ∧
      answerAppWith handle token r =
        { Response.notFound with headers := withPolicies Response.notFound.headers }) ∧
    answer token = answerWith (handler none token) token ∧
    (∀ siteRoot, answerApp siteRoot token = answerAppWith (handler siteRoot token) token) ∧
    ∀ host, Serves token host →
      (Cookie.find? Cookie.tokenName r.cookies ≠ some token →
        (host r).shutdown = false ∧ (host r).setCookies = [] ∧
        (host r).status = if (Route.ofHost? r.target).isSome then 401 else 404) ∧
      (Route.ofHost? r.target = none →
        (host r).shutdown = false ∧ (host r).setCookies = [] ∧ (host r).status = 404) := by
  refine ⟨?_, fun hcookie handle => ?_, fun hroute handle => ?_, answer_eq_answerWith token,
    fun siteRoot => answerApp_eq_answerAppWith siteRoot token, fun host hserves => ?_⟩
  · rw [hapi.route.2]
    by_cases hpath : Target.path r.target = Route.shutdownPath <;> simp [hpath]
  · have hbarred := answerWith_of_unauthorized hapi (authorized_eq_false hcookie) handle
    rw [answerAppWith_below_api hapi, hbarred]
    exact ⟨rfl, rfl⟩
  · rw [answerAppWith_below_api hapi, answerWith_of_unknown hroute]
    exact ⟨rfl, rfl⟩
  · -- whatever the handlers are, the two things that are asked of an answer are those of the
    -- refusal
    obtain ⟨handle, hstatus, hshutdown, hcookies⟩ := hserves.below_api hapi
    rw [hstatus, hshutdown, hcookies]
    refine ⟨fun hcookie => ?_, fun hroute => ?_⟩
    · rw [answerWith_of_unauthorized hapi (authorized_eq_false hcookie)]
      exact ⟨(quiet_barred r).shutdown, (quiet_barred r).setCookies, status_barred hapi⟩
    · rw [answerWith_of_unknown hroute]
      exact ⟨rfl, rfl, rfl⟩

/-- A request of a method that does not act, with another cookie of the name, and one that holds the
token and leads nowhere. -/
theorem refused_below_api_otherToken :
    Route.BelowApi "/api/shutdown?now" ∧
      Cookie.find? Cookie.tokenName ["token=0123abcd; token=guess"] ≠ some "0123abcd" ∧
      (answer "0123abcd" ⟨"DELETE", "/api/shutdown?now", ["token=0123abcd; token=guess"]⟩).status =
        401 ∧
      Route.BelowApi "/api/status" ∧ Route.ofHost? "/api/status" = none ∧
      (answer "0123abcd" ⟨"POST", "/api/status", ["token=0123abcd"]⟩).status = 404 := by
  have hapi : Route.BelowApi "/api/shutdown?now" := by decide
  have hcookie :
      Cookie.find? Cookie.tokenName ["token=0123abcd; token=guess"] ≠ some "0123abcd" := by
    decide +kernel
  obtain ⟨-, -, -, -, -, hhost⟩ := @refused_below_api "0123abcd"
    ⟨"DELETE", "/api/shutdown?now", ["token=0123abcd; token=guess"]⟩ hapi
  obtain ⟨-, -, hstatus⟩ := (hhost _ (.inl rfl)).1 hcookie
  have hunknown : Route.BelowApi "/api/status" := by decide
  have hroute : Route.ofHost? "/api/status" = none := by decide
  obtain ⟨-, -, -, -, -, hhost'⟩ := @refused_below_api "0123abcd"
    ⟨"POST", "/api/status", ["token=0123abcd"]⟩ hunknown
  obtain ⟨-, -, hstatus'⟩ := (hhost' _ (.inl rfl)).2 hroute
  exact ⟨hapi, hcookie, hstatus, hunknown, hroute, hstatus'⟩

/-- The guard does not stand before the paths below `/api/` that lead nowhere. -/
theorem not_refused_unknown_path :
    ¬ ∀ (token : String) (r : Request), Route.BelowApi r.target →
      Cookie.find? Cookie.tokenName r.cookies ≠ some token → (answer token r).status = 401 := by
  intro h
  have hstatus := h "0123abcd" ⟨"GET", "/api/status", []⟩ (by decide) (by decide)
  exact absurd hstatus (by decide)

end AppShell.Host
