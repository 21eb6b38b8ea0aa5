import ScrapeDiscovery.Json.Basic

/-!
# Access to secrets

Secrets are only watched once the agent may list them. Whether it may is asked
of the cluster, and asked again every minute as long as it may not. A review that
fails or says nothing counts as a refusal.
-/

namespace ScrapeDiscovery.Cluster

/-- The answer to a review (`can_list_secrets`). -/
inductive ReviewReply where
  | allowed (isAllowed : Bool)
  /-- The review failed. -/
  | failed
  /-- The review was not decided. -/
  | undecided
  deriving DecidableEq, Repr

/-- Whether an answer grants access (`review_allowed`). -/
def ReviewReply.grants : ReviewReply → Bool
  | .allowed b => b
  | .failed | .undecided => false

/-- What is asked for in a namespace (`secret_access_review`). -/
def reviewAttributes (ns : String) : Json :=
  .object [("namespace", .text ns), ("resource", .text "secrets"), ("verb", .text "list")]

/-- The review that asks whether secrets of a namespace may be listed (`secret_access_review`). -/
def reviewRequest (ns : String) : Json :=
  .object [("apiVersion", .text "authorization.k8s.io/v1"),
    ("kind", .text "SelfSubjectAccessReview"), ("metadata", .object []),
    ("spec", .object [("resourceAttributes", reviewAttributes ns)])]

/-- How many seconds pass between two reviews (`SECRET_ACCESS_RETRY`). -/
def reviewInterval : Nat := 60

/-- The state of asking for access (`watch_secrets`). -/
structure AccessCheck where
  /-- The answers to come; the last one is repeated. -/
  replies : List ReviewReply
  /-- The second at which the next review is due. -/
  due : Nat := 0
  mayList : Bool := false
  /-- How many reviews were asked for. -/
  asked : Nat := 0
  deriving DecidableEq, Repr

namespace AccessCheck

/-- Asks for one review (`can_list_secrets`). -/
def ask (c : AccessCheck) : AccessCheck where
  replies := if c.replies.length ≤ 1 then c.replies else c.replies.drop 1
  due := c.due + reviewInterval
  mayList := (c.replies.headD .undecided).grants
  asked := c.asked + 1

/-- Asks for the reviews that are due before a time, at most `fuel` of them. -/
def runWithin (time : Nat) : (fuel : Nat) → AccessCheck → AccessCheck
  | 0, c => c
  | fuel + 1, c => if c.mayList || time ≤ c.due then c else runWithin time fuel c.ask

/-- Asks for the reviews that are due before a time (`watch_secrets`). -/
def runUntil (c : AccessCheck) (time : Nat) : AccessCheck := runWithin time (time - c.due) c

end AccessCheck

end ScrapeDiscovery.Cluster
