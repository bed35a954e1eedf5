import IndraMqtt.Lib.AssocList
import IndraMqtt.Protocol.FilterLanguage

/-! The subscription trie of the router. Filters are stored along their
levels, with one child for each fixed level, one child for `+`, and the
subscriptions of a final `#` at the node where it stands. -/
namespace IndraMqtt.Routing

open Protocol

/-- One live subscription copy, with the options of its last SUBSCRIBE. -/
structure Subscription where
  clientId : Str
  connId : Nat
  qos : QoS
  group : Option Str
  tenant : Str
  noLocal : Bool
  retainAsPublished : Bool
  retainHandling : Nat
  subscriptionId : Nat
  deriving DecidableEq

/-- The source's hash set, listed in some order of iteration. -/
abbrev SubscriptionSet := List Subscription

structure TrieNode where
  children : List (Str × TrieNode)
  singleWildcard : Option TrieNode
  multiWildcardSubs : SubscriptionSet
  exactSubs : SubscriptionSet

namespace TrieNode

def empty : TrieNode := ⟨[], none, [], []⟩

def child (node : TrieNode) (level : Str) : Option TrieNode :=
  if level = ['+'] then node.singleWildcard else AssocList.get node.children level

def setChild (node : TrieNode) (level : Str) (next : TrieNode) : TrieNode :=
  if level = ['+'] then { node with singleWildcard := some next }
  else { node with children := AssocList.put node.children level next }

def dropChild (node : TrieNode) (level : Str) : TrieNode :=
  if level = ['+'] then { node with singleWildcard := none }
  else { node with children := AssocList.del node.children level }

def isEmptyNode (node : TrieNode) : Bool :=
  node.exactSubs.isEmpty && node.multiWildcardSubs.isEmpty && node.children.isEmpty &&
    node.singleWildcard.isNone

end TrieNode

variable (subs : SubscriptionSet) (clientId tenant : Str)

def Subscription.owned (sub : Subscription) : Bool :=
  sub.clientId = clientId && sub.tenant = tenant

def holds : Bool :=
  subs.any fun sub => sub.owned clientId tenant

def without : SubscriptionSet :=
  subs.filter fun sub => !sub.owned clientId tenant

def replace (sub : Subscription) : SubscriptionSet :=
  sub :: without subs sub.clientId sub.tenant

/-- `Router::insert_owned` on the levels from position `pos` on, with whether
a new entry was added. The empty list of levels never occurs. -/
def insertOwned : List Str → TrieNode → Subscription → TrieNode × Bool
  | [], node, _ => (node, false)
  | level :: rest, node, sub =>
    if level = ['#'] then
      ({ node with multiWildcardSubs := replace node.multiWildcardSubs sub },
        !holds node.multiWildcardSubs sub.clientId sub.tenant)
    else
      let child := (node.child level).getD TrieNode.empty
      if rest.isEmpty then
        (node.setChild level { child with exactSubs := replace child.exactSubs sub },
          !holds child.exactSubs sub.clientId sub.tenant)
      else
        let next := insertOwned rest child sub
        (node.setChild level next.1, next.2)

def terminalContains : List Str → TrieNode → Str → Str → Bool
  | [], _, _, _ => false
  | level :: rest, node, clientId, tenant =>
    if level = ['#'] then holds node.multiWildcardSubs clientId tenant
    else
      match node.child level with
      | none => false
      | some child =>
        if rest.isEmpty then holds child.exactSubs clientId tenant
        else terminalContains rest child clientId tenant

def pathExists : List Str → TrieNode → Bool
  | [], _ => true
  | level :: rest, node =>
    if level = ['#'] then true
    else
      match node.child level with
      | none => false
      | some child => pathExists rest child

def storeUnlessEmpty (node : TrieNode) (level : Str) (child : TrieNode) : TrieNode :=
  if child.isEmptyNode then node.dropChild level else node.setChild level child

def removeOwned : List Str → TrieNode → Str → Str → TrieNode × Bool
  | [], node, _, _ => (node, false)
  | level :: rest, node, clientId, tenant =>
    if level = ['#'] then
      let kept := without node.multiWildcardSubs clientId tenant
      ({ node with multiWildcardSubs := kept }, decide (kept.length ≠ node.multiWildcardSubs.length))
    else
      match node.child level with
      | none => (node, false)
      | some child =>
        if rest.isEmpty then
          let kept := without child.exactSubs clientId tenant
          if kept.length = child.exactSubs.length then
            (node.setChild level { child with exactSubs := kept }, false)
          else (storeUnlessEmpty node level { child with exactSubs := kept }, true)
        else
          let next := removeOwned rest child clientId tenant
          if next.2 then (storeUnlessEmpty node level next.1, true)
          else (node.setChild level next.1, false)

/-- `Router::collect_in_tenant`: the tenant's entries and the number of others. -/
def collectInTenant (tenant : Str) : SubscriptionSet × Nat :=
  (subs.filter (·.tenant = tenant), (subs.filter (·.tenant ≠ tenant)).length)

/-- Two collections into the same accumulators, without repeated entries. -/
def both (first second : SubscriptionSet × Nat) : SubscriptionSet × Nat :=
  (first.1 ∪ second.1, first.2 + second.2)

def collectTerminal (child : Option TrieNode) (tenant : Str) : SubscriptionSet × Nat :=
  match child with
  | none => ([], 0)
  | some child =>
    both (collectInTenant child.multiWildcardSubs tenant) (collectInTenant child.exactSubs tenant)

/-- `Router::match_recursive_in_tenant` on the segments of the topic still to
be walked, which the source splits off one at a time. -/
def matchRecursiveInTenant : List Str → TrieNode → Str → SubscriptionSet × Nat
  | [], _, _ => ([], 0)
  | [last], node, tenant =>
    both (collectInTenant node.multiWildcardSubs tenant)
      (both (collectTerminal (AssocList.get node.children last) tenant)
        (collectTerminal node.singleWildcard tenant))
  | head :: next :: tail, node, tenant =>
    both (collectInTenant node.multiWildcardSubs tenant)
      (both
        ((AssocList.get node.children head).elim ([], 0) fun child =>
          matchRecursiveInTenant (next :: tail) child tenant)
        (node.singleWildcard.elim ([], 0) fun child =>
          matchRecursiveInTenant (next :: tail) child tenant))

def terminalSets (child : Option TrieNode) : SubscriptionSet :=
  match child with
  | none => []
  | some child => child.multiWildcardSubs ∪ child.exactSubs

def matchRecursive : List Str → TrieNode → SubscriptionSet
  | [], _ => []
  | [last], node =>
    node.multiWildcardSubs ∪
      (terminalSets (AssocList.get node.children last) ∪ terminalSets node.singleWildcard)
  | head :: next :: tail, node =>
    node.multiWildcardSubs ∪
      ((AssocList.get node.children head).elim [] (fun child => matchRecursive (next :: tail) child) ∪
        node.singleWildcard.elim [] fun child => matchRecursive (next :: tail) child)

def maxSubscriptions : Nat := 100000

/-- The trie part of the router: the current root, the entry counter and the
flag that some subscription lives outside the default tenant. -/
structure Router where
  root : TrieNode
  subscriptionCount : Nat
  hasNonDefault : Bool

namespace Router

def empty : Router := ⟨TrieNode.empty, 0, false⟩

/-- The tenant flag that a subscribe raises before anything else. -/
def noteTenant (router : Router) (sub : Subscription) : Router :=
  if sub.tenant ≠ "default".toList then { router with hasNonDefault := true } else router

/-- `Router::subscribe`. A new entry past the bound is refused; replacing an
entry of the same client always succeeds. -/
def subscribe (router : Router) (filter : TopicFilter) (sub : Subscription) : Router × Bool :=
  let router := router.noteTenant sub
  if !terminalContains filter.text.levels router.root sub.clientId sub.tenant &&
      decide (maxSubscriptions ≤ router.subscriptionCount) then (router, false)
  else
    let next := insertOwned filter.text.levels router.root sub
    ({ router with
        root := next.1
        subscriptionCount := router.subscriptionCount + if next.2 then 1 else 0 }, true)

def unsubscribeInTenant (router : Router) (filter : TopicFilter) (clientId tenant : Str) : Router :=
  if !pathExists filter.text.levels router.root then router
  else if !terminalContains filter.text.levels router.root clientId tenant then router
  else
    let next := removeOwned filter.text.levels router.root clientId tenant
    if next.2 then
      { router with root := next.1, subscriptionCount := router.subscriptionCount - 1 }
    else router

end Router

end IndraMqtt.Routing
