import Ecclesia.Absl.Status
import Ecclesia.Library.Assoc

namespace Ecclesia.Router

/-!
# Selections of servers

A router spec selects servers in three places: for the queries to execute, for the
policy of stable ids, and for the versions of the BMC that a query needs.  Each place
reads the same message with a matcher of its own.
-/

/-- `SelectionClass.ServerType`, an open enumeration. -/
inductive ServerType where
  | unspecified
  | bmcweb
  | unrecognized (number : Nat)
deriving DecidableEq, Repr

inductive ServerClass where
  | unspecified
  | compute
  | unrecognized (number : Nat)
deriving DecidableEq, Repr

/-- `NodeClassAssignment.NodeClass` -/
inductive NodeClass where
  | unspecified
  | compute
  | unrecognized (number : Nat)
deriving DecidableEq, Repr

/-- `SelectionSpec.SelectionClass` -/
structure SelectionClass where
  serverType : Option ServerType
  serverTag : List Text
  serverClass : List ServerClass
  nodeClass : List NodeClass
deriving DecidableEq, Repr

/-- What a matcher is told about a server. -/
structure ServerInfo where
  serverTag : Text
  serverType : ServerType
  serverClass : ServerClass
deriving DecidableEq, Repr

def serverClassFromNodeClass : NodeClass -> ServerClass
  | .compute => .compute
  | _ => .unspecified

/-- No field of the message is set. -/
def SelectionClass.isEmpty (select : SelectionClass) : Bool :=
  select.serverType.isNone && select.serverTag.isEmpty && select.nodeClass.isEmpty &&
    select.serverClass.isEmpty

variable (routerSpec : QueryRouterSpec) (select : SelectionClass) (serverTag : Text)

/-- A list of tags that selects no server in particular selects every one. -/
def serverTagMatched : Bool :=
  if select.serverTag.isEmpty then true else select.serverTag.contains serverTag

section

variable {Class : Type} [DecidableEq Class]

/-- The loop over the classes of a selection, which fails at one that is unspecified. -/
def classMatched (unspecified : Class) (message : String) (isServers : Class -> Bool) :
    List Class -> StatusOr Bool
  | [] => .ok false
  | classSelect :: rest =>
    if classSelect = unspecified then .error (.failedPrecondition (text message))
    else if isServers classSelect then .ok true
    else classMatched unspecified message isServers rest

end

variable (nodeEntityTag : Text) (serverType : ServerType)

def queryTypeMatched : StatusOr Bool :=
  match select.serverType with
  | none => .ok true
  | some typeSelect =>
    if typeSelect = .unspecified then
      .error (.failedPrecondition (text "Server type cannot be SERVER_TYPE_UNSPECIFIED"))
    else .ok (decide (typeSelect = serverType))

def queryClassMatched (serverClass : Option ServerClass) :
    StatusOr Bool :=
  match serverClass with
  | none => .ok true
  | some ofServer =>
    if !select.nodeClass.isEmpty then
      classMatched .unspecified "Node class cannot be NODE_CLASS_UNSPECIFIED"
        (fun classSelect => decide (serverClassFromNodeClass classSelect = ofServer))
        select.nodeClass
    else if !select.serverClass.isEmpty then
      classMatched .unspecified "Server class cannot be SERVER_CLASS_UNSPECIFIED"
        (fun classSelect => decide (classSelect = ofServer)) select.serverClass
    else .ok true

/-- One turn of the loop of `ExecuteOnMatchingSelections`, up to the callback. -/
def selectionMatched (serverClass : Option ServerClass) : StatusOr Bool := do
  if select.isEmpty then
    throw (.failedPrecondition (text "No select conditions specified"))
  let typeMatched <- queryTypeMatched select serverType
  let tagMatched := serverTagMatched select serverTag
  let classMatched <- queryClassMatched select serverClass
  return typeMatched && tagMatched && classMatched

section

variable {World : Type}

def executeOnMatchingSelections (serverTag : Text) (serverType : ServerType)
    (serverClass : Option ServerClass) (executeFn : World -> Status × World) :
    List SelectionClass -> World -> Status × World
  | [], world => (.okStatus, world)
  | select :: rest, world =>
    match selectionMatched select serverTag serverType serverClass with
    | .error status => (status, world)
    | .ok false => executeOnMatchingSelections serverTag serverType serverClass executeFn rest world
    | .ok true =>
      match executeFn world with
      | (status, after) =>
        if status.isOk then
          executeOnMatchingSelections serverTag serverType serverClass executeFn rest after
        else (status, after)

end

/-- `StableIdConfig.StableIdType` -/
inductive StableIdType where
  | unspecified
  | none
  | redfishLocation
  | topologyDerived
  | unrecognized (number : Nat)
deriving DecidableEq, Repr

/-- `StableIdConfig.Policy` -/
structure StableIdPolicy where
  select : SelectionClass
  stableIdType : StableIdType
  topologyConfigPath : Text

/-- `VersionConfig.Policy.BmcVersion` -/
structure BmcVersion where
  minVersion : Option Text
  maxVersion : Option Text
deriving DecidableEq, Repr

/-- `VersionConfig.Policy` -/
structure VersionPolicy where
  select : SelectionClass
  bmcVersion : BmcVersion

/-- The fields of a `QueryRouterSpec` that the policies are in. -/
structure QueryRouterSpec where
  stableIdConfig : Option (List StableIdPolicy)
  defaultStableIdType : StableIdType
  queryIdToVersionConfig : HashMap Text (List VersionPolicy)

/-- The server type of a policy, where one that is not set is every server's. -/
def policyTypeMatched : Bool :=
  match select.serverType with
  | none => true
  | some typeSelect => decide (typeSelect = serverType)

variable (serverClass : ServerClass)

def stableIdPolicyMatched : Bool :=
  policyTypeMatched select serverType &&
    (select.serverClass.contains serverClass || select.serverTag.contains nodeEntityTag)

/-- The loop over the policies of the stable ids, which ends at the first that matches. -/
def firstMatchingPolicy (config : Option (List StableIdPolicy)) (nodeEntityTag : Text)
    (serverType : ServerType) (serverClass : ServerClass) : Option StableIdPolicy :=
  match config with
  | none => none
  | some policies =>
    policies.find? fun policy =>
      stableIdPolicyMatched policy.select nodeEntityTag serverType serverClass

def getStableIdTypeFromRouterSpec : StableIdType :=
  match firstMatchingPolicy routerSpec.stableIdConfig nodeEntityTag serverType serverClass with
  | some policy => policy.stableIdType
  | none => routerSpec.defaultStableIdType

def getTopologyConfigNameFromRouterSpec : Option Text :=
  match firstMatchingPolicy routerSpec.stableIdConfig nodeEntityTag serverType serverClass with
  | some policy => some policy.topologyConfigPath
  | none => none

def versionPolicyMatched : Bool :=
  policyTypeMatched select serverType && serverTagMatched select nodeEntityTag &&
    (if select.serverClass.isEmpty then true else select.serverClass.contains serverClass)

/-- The policies of one query.  A later one that matches replaces what an earlier one set. -/
def applyVersionPolicies (queryId nodeEntityTag : Text) (serverType : ServerType)
    (serverClass : ServerClass) (policies : List VersionPolicy)
    (versions : HashMap Text BmcVersion) : HashMap Text BmcVersion :=
  policies.foldl (fun found policy =>
      if versionPolicyMatched policy.select nodeEntityTag serverType serverClass then
        found.assign queryId
          { minVersion := policy.bmcVersion.minVersion, maxVersion := policy.bmcVersion.maxVersion }
      else found)
    versions

def getQueryIdToBmcVersionFromRouterSpec : HashMap Text BmcVersion :=
  routerSpec.queryIdToVersionConfig.entries.foldl (fun found entry =>
      applyVersionPolicies entry.1 nodeEntityTag serverType serverClass entry.2 found)
    .empty

end Ecclesia.Router
