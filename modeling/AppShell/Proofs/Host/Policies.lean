/-
AppShell/Proofs/Host/Policies.lean

Policies on every answer.

The application answers what its routes, their guards and its handlers answer,
with two headers put on at the very end: whichever route a request takes, and
also if it takes none, or is refused on the way.  Putting a header on takes the
place of all values that were there under its name (`Headers.insert`); so an
answer has exactly one value under each of the two names, and under every other
name the values that it had before, in their order.

The handlers are left open, as in `answerAppWith`: nothing is assumed of the
headers that they set, but that their names are in lower case like those of all
headers here.  The main statement is `policies_of_every_answer`.
-/
import AppShell.Proofs.Host.Guarding

namespace AppShell.Host

/-! ### Headers with several values -/

namespace Headers

variable {name other value : String}

/-- The values under a name, in their order. -/
def values (name : String) (headers : List (String × String)) : List String :=
  (headers.filter (·.1 == name)).map Prod.snd

/-- Headers with one value under a name, in the place of all that were there. -/
def insert (name value : String) (headers : List (String × String)) : List (String × String) :=
  headers.filter (·.1 != name) ++ [(name, value)]

@[simp] theorem values_insert_self (headers : List (String × String)) :
    values name (insert name value headers) = [value] := by
  simp [values, insert, List.filter_filter]

theorem values_insert_of_ne (h : other ≠ name) (headers : List (String × String)) :
    values other (insert name value headers) = values other headers := by
  have hlast : [(name, value)].filter (·.1 == other) = [] := by simp [h.symm]
  rw [values, insert, List.filter_append, hlast, List.append_nil, List.filter_filter, values]
  -- a header of the other name is never one that makes place
  refine congrArg _ (List.filter_congr fun e _ => ?_)
  by_cases he : e.1 = other
  · simp [he, h]
  · simp [he]

example : insert "b" "3" [("b", "1"), ("a", "0"), ("b", "2")] = [("a", "0"), ("b", "3")] := by
  decide

end Headers

/-- The policies are put on one after the other. -/
theorem withPolicies_eq_insert (headers : List (String × String)) :
    withPolicies headers = Headers.insert "content-security-policy" contentPolicy
      (Headers.insert "cache-control" cachePolicy headers) := by
  have hnames : policies.map Prod.fst = ["cache-control", "content-security-policy"] := rfl
  simp only [withPolicies, Headers.insert, List.filter_append, List.filter_filter,
    List.append_assoc, hnames]
  refine congr (congrArg _ (List.filter_congr fun h _ => ?_)) rfl
  rw [Bool.eq_iff_iff]
  simp [and_comm]

/-! ### Answers -/

namespace Response

/-- The values of an answer under the name of a header. -/
def values (a : Response) (name : String) : List String :=
  Headers.values name a.headers

/-- The headers of an answer under other names than those of the policies. -/
def ownHeaders (a : Response) : List (String × String) :=
  a.headers.filter fun h => h.1 ∉ policies.map Prod.fst

end Response

/-- What an answer comes to under the policies: `inner` was answered first, and `outer` is sent. -/
structure UnderPolicies (inner outer : Response) : Prop where
  cache : outer.values "cache-control" = [cachePolicy]
  content : outer.values "content-security-policy" = [contentPolicy]
  values : ∀ name ∉ policies.map Prod.fst, outer.values name = inner.values name
  ownHeaders : outer.ownHeaders = inner.ownHeaders
  status : outer.status = inner.status
  body : outer.body = inner.body
  shutdown : outer.shutdown = inner.shutdown

theorem ownHeaders_withPolicies (a : Response) :
    ({ a with headers := withPolicies a.headers } : Response).ownHeaders = a.ownHeaders := by
  have hpolicies : policies.filter (fun h => h.1 ∉ policies.map Prod.fst) = [] := by decide
  simp only [Response.ownHeaders, withPolicies, List.filter_append, hpolicies, List.append_nil,
    List.filter_filter, Bool.and_self]

/-- Whatever an answer carries, the policies take no place but their own. -/
theorem underPolicies_withPolicies (a : Response) :
    UnderPolicies a { a with headers := withPolicies a.headers } where
  cache := by
    rw [Response.values, withPolicies_eq_insert, Headers.values_insert_of_ne (by decide),
      Headers.values_insert_self]
  content := by
    rw [Response.values, withPolicies_eq_insert, Headers.values_insert_self]
  values := by
    intro name hname
    have hcontent : name ≠ "content-security-policy" := fun h => hname (h ▸ by decide)
    have hcache : name ≠ "cache-control" := fun h => hname (h ▸ by decide)
    rw [Response.values, withPolicies_eq_insert, Headers.values_insert_of_ne hcontent,
      Headers.values_insert_of_ne hcache, Response.values]
  ownHeaders := ownHeaders_withPolicies a
  status := rfl
  body := rfl
  shutdown := rfl

/-- What the routes of the application answer with the given handlers, their guards and the check
of the method included. -/
def routedWith (handle : Route → Response) (token : String) (r : Request) : Response :=
  ((Route.ofApp? r.target).map (dispatch handle token r)).getD .notFound

/-- Every answer of the application, with whatever handlers, is that of its routes under the
policies; and so is every answer with its own handlers. -/
theorem policies_of_every_answer (siteRoot : Option String) (token : String) (r : Request) :
    (∀ handle, UnderPolicies (routedWith handle token r) (answerAppWith handle token r)) ∧
      UnderPolicies (answerRoute? siteRoot token r (Route.ofApp? r.target))
        (answerApp siteRoot token r) :=
  ⟨fun handle => underPolicies_withPolicies (routedWith handle token r),
    underPolicies_withPolicies (answerRoute? siteRoot token r (Route.ofApp? r.target))⟩

end AppShell.Host
