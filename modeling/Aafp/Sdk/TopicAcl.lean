import Aafp.Foundation.HashMap
import Aafp.Identity.AgentId
import Aafp.Sdk.Topic

/-! Access control for topics. -/
namespace Aafp.Sdk

open Foundation Identity

inductive TopicAction where
  | publish
  | subscribe
deriving DecidableEq

namespace TopicAction

def parse (text : List Char) : Option TopicAction :=
  if text = "publish".toList then some .publish
  else if text = "subscribe".toList then some .subscribe
  else none

end TopicAction

structure PubSubCapability where
  topicFilter : String
  action : TopicAction

namespace PubSubCapability

def parse (resource : String) : Option PubSubCapability := do
  let rest ← "pubsub/".toList.isPrefixOf? resource.toList
  let (filter, actionStr) ← splitLast (fun char => char == '/') rest
  let action ← TopicAction.parse actionStr
  some { topicFilter := String.ofList filter, action }

end PubSubCapability

/-- A UCAN token as far as it is read here: its audience, and the resource of each
capability. -/
structure UcanToken where
  aud : String
  cap : List String

def agentIdFromHex (text : String) : Option AgentId := do
  let bytes ← hexDecode text.toList
  if whole : bytes.length = 32 then some ⟨bytes, whole⟩ else none

structure TopicAcl where
  grants : AList fun _ : AgentId => List UcanToken

namespace TopicAcl

def new : TopicAcl := ⟨∅⟩

def grant (acl : TopicAcl) (token : UcanToken) : TopicAcl :=
  match agentIdFromHex token.aud with
  | some audience => ⟨acl.grants.insert audience ((acl.grants.lookup audience).getD [] ++ [token])⟩
  | none => acl

def capMatches (cap : String) (topic : String) (action : TopicAction) : Bool :=
  match PubSubCapability.parse cap with
  | none => false
  | some psc => psc.action = action && topicMatches psc.topicFilter topic

def check (acl : TopicAcl) (caller : AgentId) (topic : String) (action : TopicAction) : Bool :=
  match acl.grants.lookup caller with
  | none => false
  | some tokens => tokens.any fun token => token.cap.any fun cap => capMatches cap topic action

end TopicAcl

structure AclAuthContext where
  caller : AgentId
  acl : TopicAcl

/-- The capability is `pubsub/<topic>/<action>`, with either separator. -/
def AclAuthContext.isAuthorized (context : AclAuthContext) (capability : String) : Bool :=
  let parsed := ("pubsub/".toList.isPrefixOf? capability.toList).orElse fun _ =>
    "pubsub.".toList.isPrefixOf? capability.toList
  match parsed with
  | none => false
  | some rest =>
    match splitLast isSeparator rest with
    | none => false
    | some (topic, actionStr) =>
      match TopicAction.parse actionStr with
      | none => false
      | some action => context.acl.check context.caller (String.ofList topic) action

structure AclAuthorizationProvider where
  acl : TopicAcl
  defaultAllow : Bool

namespace AclAuthorizationProvider

def new (acl : TopicAcl) : AclAuthorizationProvider := { acl, defaultAllow := true }

def authorize (provider : AclAuthorizationProvider) (peer : AgentId) : AclAuthContext :=
  { caller := peer, acl := provider.acl }

end AclAuthorizationProvider

def authorizeSubscribe (provider : AclAuthorizationProvider) (caller : AgentId) (topic : String) :
    Except Unit Unit :=
  if (provider.authorize caller).isAuthorized s!"pubsub/{topic}/subscribe" then .ok () else .error ()

end Aafp.Sdk
