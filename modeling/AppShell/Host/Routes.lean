/-
AppShell/Host/Routes.lean

The routes of the host.

The host answers whether it is up, trades the launch token of an address for a
cookie, and stops on request of whoever holds that cookie.  The application
adds its pages and its assets, and puts two policies on every answer.  The path
of a request decides first, then its method; only the route that stops the host
looks at the cookie before the method.
-/
import AppShell.Host.Asset
import AppShell.Host.Cookie
import AppShell.Host.Target
import AppShell.View.Page

namespace AppShell.Host

open AppShell.Text

/-- A request. -/
structure Request where
  method : String
  target : String
  cookies : List String
deriving DecidableEq, Repr

/-- An answer, and whether the host is to stop. -/
structure Response where
  status : Nat
  headers : List (String × String)
  body : String
  shutdown : Bool
deriving DecidableEq, Repr

/-- What a path leads to. -/
inductive Route where
  | health
  | auth (segment : String)
  | shutdown
  | home
  | authError
  | asset (address : String)
deriving DecidableEq, Repr

namespace Route

/-- The segments of the path of a target between its slashes, the first of which is empty. -/
def segments (target : String) : List String :=
  (pieces '/' (Target.path target)).map String.ofList

/-- The route of the host that a path leads to. -/
def ofHost? (target : String) : Option Route :=
  match segments target with
  | ["", "health"] => some .health
  | ["", "auth", segment] => if segment = "" then none else some (.auth segment)
  | ["", "api", "shutdown"] => some .shutdown
  | _ => none

/-- The route of the application that a path leads to. -/
def ofApp? (target : String) : Option Route :=
  match segments target with
  | ["", ""] => some .home
  | ["", "error"] => some .authError
  | "" :: "pkg" :: names => some (.asset ("/".intercalate names))
  | _ => ofHost? target

end Route

namespace Response

/-- An answer that is only a status. -/
def ofStatus (status : Nat) : Response := ⟨status, [], "", false⟩

/-- The answer of a path that leads nowhere. -/
def notFound : Response := ofStatus 404

/-- The answer to a method other than the allowed ones. -/
def wrongMethod (allowed : String) : Response :=
  { ofStatus 405 with headers := [("allow", allowed)] }

/-- A page of the application. -/
def page (document : Markup.Node) : Response :=
  { ofStatus 200 with
    headers := [("content-type", "text/html; charset=utf-8")]
    body := Markup.render [document] }

end Response

/-! ### Methods -/

/-- The methods of a route that is read. -/
def readMethods : String := "GET,HEAD"

/-- The method of a route that acts. -/
def actMethod : String := "POST"

/-- The answer of a route that is read: a request for the head alone gets no body. -/
def reading (method : String) (answer : Response) : Response :=
  if method = "GET" then answer
  else if method = "HEAD" then { answer with body := "" }
  else .wrongMethod readMethods

/-! ### The token -/

/-- Whether a text is the launch token; an empty token accepts nothing. -/
def accepts (token candidate : String) : Bool :=
  candidate != "" && candidate == token

/-- The answer to a candidate for the launch token. -/
def authenticate (token candidate : String) : Response :=
  if accepts token candidate then
    { Response.ofStatus 302 with
      headers := [("location", "/"), ("set-cookie", Cookie.storeToken candidate)] }
  else
    { Response.ofStatus 302 with
      headers := [("location", "/error"), ("set-cookie", Cookie.clearToken)] }

/-- The answer to an address whose last segment is no text. -/
def unreadableSegment : Response :=
  { Response.ofStatus 400 with
    headers := [("content-type", "text/plain; charset=utf-8")]
    body := "Invalid URL: Invalid UTF-8 in `token`" }

/-- The answer to an address with the given last segment. -/
def authSegment (token segment : String) : Response :=
  match Percent.decode? segment with
  | some candidate => authenticate token candidate
  | none => unreadableSegment

/-- Whether a request holds the cookie with the launch token. -/
def authorized (token : String) (r : Request) : Bool :=
  match Cookie.find? Cookie.tokenName r.cookies with
  | some value => accepts token value
  | none => false

/-- The answer to a request to stop. -/
def stop (token : String) (r : Request) : Response :=
  if authorized token r then
    if r.method = actMethod then { Response.ofStatus 200 with shutdown := true }
    else .wrongMethod actMethod
  else if r.method = actMethod then .ofStatus 401
  else { Response.wrongMethod actMethod with status := 401 }

/-! ### Answers -/

/-- The answer to the address of an asset: none is there, and some cannot be looked for. -/
def asset (siteRoot : Option String) (address : String) : Response :=
  match Asset.path? siteRoot address.toList with
  | some path => if Asset.isPath path then .notFound else .ofStatus 500
  | none => .notFound

/-- The answer of a route. -/
def answerRoute (siteRoot : Option String) (token : String) (r : Request) : Route → Response
  | .health => reading r.method (.ofStatus 200)
  | .auth segment => reading r.method (authSegment token segment)
  | .shutdown => stop token r
  | .home => reading r.method (.page View.homeDocument)
  | .authError => reading r.method (.page View.authErrorDocument)
  | .asset address => reading r.method (asset siteRoot address)

/-- The answer of the host, which has no site. -/
def answer (token : String) (r : Request) : Response :=
  ((Route.ofHost? r.target).map (answerRoute none token r)).getD .notFound

/-- The policy that keeps answers out of caches. -/
def cachePolicy : String := "private, no-cache, no-store, max-age=0, must-revalidate"

/-- The policy of what a page may load. -/
def contentPolicy : String :=
  "default-src 'self'; " ++ "connect-src 'self'; " ++ "style-src 'self' 'unsafe-inline'; " ++
    "font-src data:; " ++ "img-src 'self' https://static.staticwars.com/quaggans/; " ++
    "script-src 'self' 'unsafe-inline'"

/-- The headers that every answer of the application carries. -/
def policies : List (String × String) :=
  [("cache-control", cachePolicy), ("content-security-policy", contentPolicy)]

/-- Headers with the policies in place of any that were there. -/
def withPolicies (headers : List (String × String)) : List (String × String) :=
  headers.filter (fun h => h.1 ∉ policies.map Prod.fst) ++ policies

/-- The answer of the application, whose assets are below the given folder of the site. -/
def answerApp (siteRoot : Option String) (token : String) (r : Request) : Response :=
  let inner := ((Route.ofApp? r.target).map (answerRoute siteRoot token r)).getD .notFound
  { inner with headers := withPolicies inner.headers }

end AppShell.Host
