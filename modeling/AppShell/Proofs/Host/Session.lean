/-
AppShell/Proofs/Host/Session.lean

Sessions of a browser with the host.

A browser keeps the cookies that it is told to store, each under its name and its
path, forgets those that are over at once, and sends back the ones whose path
covers that of a request.  Its visits are listed with the newest first, and what
it holds after them, and what each is answered, is determined by the host.

The token is stored and taken away under one name and one path; so after any
visits the browser holds the token if the last link that was answered with a
redirect named it, and else holds nothing (`jarAfter_eq`).  What the host answers
to a visit thus depends on that link alone.

The main statement is `session_of_serves`; who follows the launch link can stop
the host (`signalled_launch`).
-/
import AppShell.Host.Token
import AppShell.Proofs.Host.Cookies
import AppShell.Proofs.Host.Routing

namespace AppShell.Host

open AppShell.Text

/-! ### Cookies of a browser -/

/-- A cookie that a browser holds for the paths that its own covers. -/
structure StoredCookie where
  name : String
  value : String
  path : List Char
deriving DecidableEq, Repr

namespace StoredCookie

/-- What stands before the first equals sign of a part of a line, and what stands behind it. -/
def divide (part : List Char) : List Char × List Char :=
  (trimChars (part.takeWhile (· != '=')), trimChars ((part.dropWhile (· != '=')).drop 1))

/-- The attributes of a line, the last first; case does not count in their names. -/
def attributes (parts : List (List Char)) : List (String × List Char) :=
  (parts.map fun part =>
    (String.ofList ((divide part).1.map Char.toLower), (divide part).2)).reverse

/-- The path of a cookie that has none of its own: that of the request up to its last slash. -/
def defaultPath (path : List Char) : List Char :=
  match ((path.reverse.dropWhile (· != '/')).drop 1).reverse with
  | [] => ['/']
  | folder => folder

/-- Whether an age is over at once, as it is not positive. -/
def hasEnded : List Char → Bool
  | '-' :: digits => digits.all Char.isDigit
  | digits => !digits.isEmpty && digits.all (· == '0')

/-- The cookie that a line tells a browser to store after a request of the given path, and whether
it is over at once. -/
def ofLine? (path : List Char) (line : String) : Option (StoredCookie × Bool) :=
  match pieces ';' line.toList with
  | [] => none
  | pair :: parts =>
    let (name, value) := divide pair
    if '=' ∉ pair ∨ name = [] then none
    else
      let path := match (attributes parts).lookup "path" with
        | some ('/' :: own) => '/' :: own
        | _ => defaultPath path
      let ended := ((attributes parts).lookup "max-age").any hasEnded
      some (⟨String.ofList name, String.ofList value, path⟩, ended)

/-- Whether a cookie is sent with a request of the given path. -/
def covers (c : StoredCookie) (path : List Char) : Bool :=
  c.path.isPrefixOf path &&
    (c.path == path || c.path.getLast? == some '/' || path[c.path.length]? == some '/')

end StoredCookie

/-- The cookies of a browser. -/
abbrev Jar := List StoredCookie

namespace Jar

/-- Stores a cookie in the place of the one with its name and its path, unless it is over. -/
def store (jar : Jar) (c : StoredCookie) (ended : Bool) : Jar :=
  let others := jar.filter fun d => !(d.name == c.name && d.path == c.path)
  if ended then others else others ++ [c]

/-- The cookies after the lines of an answer. -/
def receive (path : List Char) (jar : Jar) (lines : List String) : Jar :=
  lines.foldl (fun jar line =>
    match StoredCookie.ofLine? path line with
    | none => jar
    | some (c, ended) => jar.store c ended) jar

/-- The line of cookies that is sent with a request, those with longer paths first, if there are
any. -/
def lines (jar : Jar) (path : List Char) : List String :=
  let sent := (jar.filter (·.covers path)).mergeSort fun c d => d.path.length ≤ c.path.length
  if sent.isEmpty then [] else ["; ".intercalate (sent.map fun c => c.name ++ "=" ++ c.value)]

@[simp] theorem lines_nil (path : List Char) : lines [] path = [] := by
  simp [lines]

end Jar

/-! ### Visits -/

/-- A request of a browser, but for its cookies. -/
structure Visit where
  method : String
  target : String
deriving DecidableEq, Repr

/-- A request with the cookies that are sent with it. -/
def Jar.request (jar : Jar) (v : Visit) : Request :=
  ⟨v.method, v.target, jar.lines (Target.path v.target)⟩

/-- Whether a visit asks the host to stop. -/
def Visit.Stops (v : Visit) : Prop :=
  v.method = "POST" ∧ Target.path v.target = Route.shutdownPath

section

variable (host : Request → Response)

/-- The cookies of a browser after visits, the newest first; it starts without any. -/
def jarAfter : List Visit → Jar
  | [] => []
  | v :: earlier =>
    let jar := jarAfter earlier
    jar.receive (Target.path v.target) (host (jar.request v)).setCookies

/-- The answer to a visit after others. -/
def answered (earlier : List Visit) (v : Visit) : Response :=
  host ((jarAfter host earlier).request v)

/-- Whether the host was told to stop in the course of visits. -/
def signalled : List Visit → Bool
  | [] => false
  | v :: earlier => signalled earlier || (answered host earlier v).shutdown

/-- What the last link named that was answered with a redirect. -/
def lastCandidate : List Visit → Option String
  | [] => none
  | v :: earlier =>
    match Route.linkSegment? v.target with
    | none => lastCandidate earlier
    | some segment =>
      if (answered host earlier v).status = 302 then Percent.decode? segment
      else lastCandidate earlier

end

/-! ### The cookie of the token -/

/-- A token is not empty. -/
theorem Token.ne_empty {token : String} (h : Token.isToken token = true) : token ≠ "" := by
  rintro rfl
  exact absurd h (by decide)

/-- The cookie that holds the token in a browser. -/
def tokenCookie (token : String) : StoredCookie :=
  ⟨Cookie.tokenName, String.ofList (Cookie.written token), ['/']⟩

/-- The pair is divided into the name and the value as it is written. -/
theorem divide_tokenPair (token : String) :
    StoredCookie.divide (Cookie.tokenPair token) =
      (Cookie.tokenName.toList, Cookie.written token) := by
  rw [StoredCookie.divide, Cookie.takeWhile_tokenPair, Cookie.dropWhile_tokenPair]
  show (_, trimChars (Cookie.written token)) = _
  rw [Cookie.trimChars_written]
  rfl

/-- The line that stores the token is read as the token's cookie, for the whole site. -/
theorem ofLine?_storeToken (path : List Char) (token : String) :
    StoredCookie.ofLine? path (Cookie.storeToken token) = some (tokenCookie token, false) := by
  have hline : (Cookie.storeToken token).toList =
      Cookie.tokenPair token ++ ';' :: " HttpOnly; SameSite=Strict; Path=/; Max-Age=86400".toList := by
    simp [Cookie.storeToken, Cookie.tokenPair, Percent.encode, Cookie.written]
  have hpieces : pieces ';' (Cookie.storeToken token).toList = Cookie.tokenPair token ::
      pieces ';' " HttpOnly; SameSite=Strict; Path=/; Max-Age=86400".toList := by
    rw [hline, pieces_eq_splitOn, pieces_eq_splitOn]
    exact List.splitOn_append_cons_self_of_not_mem (Cookie.semicolon_not_mem_tokenPair token) _
  have hequals : ¬ ('=' ∉ Cookie.tokenPair token ∨ Cookie.tokenName.toList = []) := by
    rintro (h | h)
    · exact h (List.mem_append_right _ List.mem_cons_self)
    · exact absurd h (by decide)
  rw [StoredCookie.ofLine?, hpieces]
  simp only [divide_tokenPair, if_neg hequals]
  rfl

theorem ofLine?_clearToken (path : List Char) :
    StoredCookie.ofLine? path Cookie.clearToken = some (⟨Cookie.tokenName, "", ['/']⟩, true) :=
  rfl

/-- What is sent of the cookie of the token. -/
theorem lines_tokenCookie (token : String) :
    Jar.lines [tokenCookie token] Route.shutdownPath =
      [String.ofList (Cookie.tokenPair token)] := by
  have hcovers : ([tokenCookie token].filter (·.covers Route.shutdownPath)) = [tokenCookie token] :=
    rfl
  have hline : Cookie.tokenName ++ "=" ++ String.ofList (Cookie.written token) =
      String.ofList (Cookie.tokenPair token) := by
    rw [← String.toList_inj]
    simp [Cookie.tokenPair]
  rw [Jar.lines, hcovers, List.mergeSort_singleton]
  show ["; ".intercalate [Cookie.tokenName ++ "=" ++ String.ofList (Cookie.written token)]] = _
  rw [String.intercalate_singleton, hline]

/-- Storing the token and taking it away leave the cookie of the token, or none. -/
theorem receive_token (path : List Char) (token : String) (held stored : Bool) :
    Jar.receive path (if held then [tokenCookie token] else [])
        [if stored then Cookie.storeToken token else Cookie.clearToken] =
      if stored then [tokenCookie token] else [] := by
  cases stored with
  | true =>
    simp only [Jar.receive, List.foldl_cons, List.foldl_nil, if_true, ofLine?_storeToken]
    cases held with
    | true => simp [Jar.store]
    | false => rfl
  | false =>
    simp only [Jar.receive, List.foldl_cons, List.foldl_nil, Bool.false_eq_true, if_false,
      ofLine?_clearToken]
    cases held <;> rfl

/-! ### What a browser holds -/

variable {token : String} {host : Request → Response}

/-- A browser holds the token if the last link that was redirected named it, and else nothing. -/
theorem jarAfter_eq (htoken : token ≠ "") (hhost : Serves token host) (visits : List Visit) :
    jarAfter host visits =
      if lastCandidate host visits = some token then [tokenCookie token] else [] := by
  -- the induction is on the visits: a redirect writes the jar anew, and nothing else touches it
  induction visits with
  | nil => rfl
  | cons v earlier ih =>
    rw [jarAfter, lastCandidate]
    rcases hlink : Route.linkSegment? v.target with - | segment
    · -- no link, and so no cookie
      have hcookies : (host ((jarAfter host earlier).request v)).setCookies = [] :=
        hhost.setCookies_eq_nil hlink
      rw [hcookies]
      exact ih
    · have htrades : (host ((jarAfter host earlier).request v)).Trades token segment :=
        hhost.trades htoken hlink
      rcases htrades with ⟨candidate, hcandidate, hstatus, hcookies⟩ | ⟨hstatus, hcookies⟩
      · -- whatever was held before, the redirect decides
        have hredirected : (answered host earlier v).status = 302 := hstatus
        have hreceived := receive_token (Target.path v.target) token
          (decide (lastCandidate host earlier = some token)) (decide (candidate = token))
        simp only [decide_eq_true_eq, ← ih] at hreceived
        simp only [hcookies, hreceived, hredirected, if_true, hcandidate, Option.some.injEq]
      · have hrefused : (answered host earlier v).status ≠ 302 := hstatus
        simp only [hcookies, hrefused, if_false]
        exact ih

/-- The token is sent with a request to stop if the last link that was redirected named it. -/
theorem find?_request (htoken : token ≠ "") (hhost : Serves token host) (earlier : List Visit)
    {v : Visit} (hpath : Target.path v.target = Route.shutdownPath) :
    Cookie.find? Cookie.tokenName ((jarAfter host earlier).request v).cookies = some token ↔
      lastCandidate host earlier = some token := by
  show Cookie.find? _ ((jarAfter host earlier).lines (Target.path v.target)) = _ ↔ _
  rw [hpath, jarAfter_eq htoken hhost]
  by_cases hlast : lastCandidate host earlier = some token
  · rw [if_pos hlast, lines_tokenCookie, Cookie.find?_tokenPair]
    exact iff_of_true rfl hlast
  · rw [if_neg hlast, Jar.lines_nil]
    exact iff_of_false nofun hlast

/-- A visit stops the host if it asks so, and the last link that was redirected named the token. -/
theorem shutdown_answered (htoken : token ≠ "") (hhost : Serves token host)
    (earlier : List Visit) (v : Visit) : (answered host earlier v).shutdown = true ↔
      v.Stops ∧ lastCandidate host earlier = some token := by
  rw [answered, hhost.shutdown_iff htoken, Visit.Stops, and_assoc]
  exact and_congr_right fun _ => and_congr_right fun hpath =>
    find?_request htoken hhost earlier hpath

/-- The stop was signalled when some visit asked for it while the last link redirected had named the
token. -/
theorem signalled_iff (htoken : token ≠ "") (hhost : Serves token host) (visits : List Visit) :
    signalled host visits = true ↔ ∃ later v earlier, visits = later ++ v :: earlier ∧
      v.Stops ∧ lastCandidate host earlier = some token := by
  induction visits with
  | nil => simp [signalled]
  | cons v earlier ih =>
    rw [signalled, Bool.or_eq_true, ih, shutdown_answered htoken hhost]
    -- the visit that stopped the host is an earlier one, or the newest
    constructor
    · rintro (⟨later, w, earliest, rfl, hstops⟩ | hstops)
      · exact ⟨v :: later, w, earliest, rfl, hstops⟩
      · exact ⟨[], v, earlier, rfl, hstops⟩
    · rintro ⟨later, w, earliest, he, hstops⟩
      rcases later with - | ⟨u, later⟩
      · cases he
        exact .inr hstops
      · cases he
        exact .inl ⟨later, w, earliest, rfl, hstops⟩

/-- A session with a host: it is stopped by a request to do so that holds the token, and by no
other; over the visits of a browser, by a request after a last redirected link that named the token.
Without such a link a request to stop is refused and changes nothing, and no other request changes
whether the host is to stop. -/
structure SessionWith (token : String) (host : Request → Response) : Prop where
  guarded : ∀ r : Request, (host r).shutdown = true ↔ r.method = "POST" ∧
    Target.path r.target = Route.shutdownPath ∧
      Cookie.find? Cookie.tokenName r.cookies = some token
  signalled : ∀ visits, signalled host visits = true ↔
    ∃ later v earlier, visits = later ++ v :: earlier ∧ v.Stops ∧
      lastCandidate host earlier = some token
  refused : ∀ earlier (v : Visit), v.Stops → lastCandidate host earlier ≠ some token →
    (answered host earlier v).status = 401 ∧
      Host.signalled host (v :: earlier) = Host.signalled host earlier ∧
      jarAfter host (v :: earlier) = jarAfter host earlier
  others : ∀ earlier (v : Visit), ¬ v.Stops →
    Host.signalled host (v :: earlier) = Host.signalled host earlier

/-- The visits of a browser to a host with a launch token are a session with it. -/
theorem session_of_serves (htoken : Token.isToken token = true) (hhost : Serves token host) :
    SessionWith token host := by
  have hne := Token.ne_empty htoken
  refine ⟨hhost.shutdown_iff hne, signalled_iff hne hhost, fun earlier v hstops hlast => ?_,
    fun earlier v hstops => ?_⟩
  · have hanswer : (answered host earlier v).shutdown = false :=
      Bool.eq_false_iff.2 fun h => hlast ((shutdown_answered hne hhost earlier v).1 h).2
    have hcookie := mt (find?_request hne hhost earlier hstops.2).1 hlast
    -- no link leads to the path that stops the host, so that the answer sets no cookie
    have hcookies : (host ((jarAfter host earlier).request v)).setCookies = [] :=
      hhost.setCookies_eq_nil (Route.linkSegment?_of_shutdown hstops.2)
    refine ⟨hhost.refuses hne hstops.2 hcookie, ?_, ?_⟩
    · rw [signalled, hanswer, Bool.or_false]
    · rw [jarAfter, hcookies]
      rfl
  · have hanswer : (answered host earlier v).shutdown = false :=
      Bool.eq_false_iff.2 fun h => hstops ((shutdown_answered hne hhost earlier v).1 h).1
    rw [signalled, hanswer, Bool.or_false]

theorem session_of_serves_digits :
    Token.isToken "0123456789abcdef0123456789abcdef0123456789abcdef0123456789abcdef" = true ∧
      SessionWith "0123456789abcdef0123456789abcdef0123456789abcdef0123456789abcdef"
        (answer "0123456789abcdef0123456789abcdef0123456789abcdef0123456789abcdef") := by
  have htoken : Token.isToken
      "0123456789abcdef0123456789abcdef0123456789abcdef0123456789abcdef" = true := by
    decide
  exact ⟨htoken, session_of_serves htoken (.inl rfl)⟩

/-! ### The launch link -/

/-- The digits of a launch token mean nothing else in a target. -/
theorem Token.plain (htoken : Token.isToken token = true) :
    ∀ c ∈ token.toList, c.toNat < 128 ∧ c ≠ '%' ∧ c ≠ '/' ∧ (c != '?' && c != '#') = true := by
  have hdigits : Hex.lowerDigits.all fun c => c.toNat < 128 ∧ c ≠ '%' ∧ c ≠ '/' ∧
      (c != '?' && c != '#') = true := by decide
  intro c hc
  have hall := List.all_eq_true.1 (Bool.and_eq_true_iff.1 htoken).2 c hc
  exact of_decide_eq_true (List.all_eq_true.1 hdigits c (List.contains_iff_mem.1 hall))

/-- The link that is launched leads to the token. -/
theorem linkSegment?_launch (htoken : Token.isToken token = true) :
    Route.linkSegment? ("/auth/" ++ token) = some token := by
  have hplain := Token.plain htoken
  have hprefix : Route.linkPrefix.all fun c => c != '?' && c != '#' := by decide
  have htarget : ("/auth/" ++ token).toList = '/' :: ("auth/".toList ++ token.toList) := by simp
  have hpath : Target.path ("/auth/" ++ token) = Route.linkPrefix ++ token.toList := by
    rw [Target.path_of_slash htarget, Target.withoutQuery]
    show (Route.linkPrefix ++ token.toList).takeWhile _ = _
    rw [List.takeWhile_append_of_pos (List.all_eq_true.1 hprefix),
      takeWhile_eq_self fun c hc => (hplain c hc).2.2.2]
  exact Route.linkSegment?_eq_some_iff.2
    ⟨hpath, Token.ne_empty htoken, fun h => (hplain '/' h).2.2.1 rfl⟩

/-- A token needs no escapes. -/
theorem decode?_token (htoken : Token.isToken token = true) :
    Percent.decode? token = some token := by
  have hplain := Token.plain htoken
  have hdecode := Percent.decode?_plain fun c hc => ⟨(hplain c hc).1, (hplain c hc).2.1⟩
  rwa [String.ofList_toList] at hdecode

/-- Who follows the launch link can stop the host, whatever was visited before. -/
theorem signalled_launch (htoken : Token.isToken token = true) (hhost : Serves token host)
    (earlier : List Visit) :
    signalled host (⟨"POST", "/api/shutdown"⟩ :: ⟨"GET", "/auth/" ++ token⟩ :: earlier) = true := by
  have hne := Token.ne_empty htoken
  have hlink := linkSegment?_launch htoken
  have hredirected : (answered host earlier ⟨"GET", "/auth/" ++ token⟩).status = 302 :=
    hhost.redirects hlink (decode?_token htoken) rfl
  have hlast : lastCandidate host (⟨"GET", "/auth/" ++ token⟩ :: earlier) = some token := by
    simp only [lastCandidate, hlink, hredirected, if_true, decode?_token htoken]
  exact (signalled_iff hne hhost _).2 ⟨[], _, _, rfl, ⟨rfl, rfl⟩, hlast⟩

end AppShell.Host
