import Ecclesia.HttpIntf.GetValue
import Ecclesia.Redfish.IndexHelper

namespace Ecclesia.HttpIntf

open Option

open Transport (Body)

/-!
# Supported features

A Redfish service tells in its root which query parameters it supports.  The interface records
this once, and removes from later requests the parameters that are not supported.

The definitions follow `http_redfish_intf.cc` and `interface.cc`.
-/

/-- A `RedfishVariant` of this interface.  Without a body it was made from a status alone. -/
structure Variant where
  status : Status
  body : Option Body

/-- `HttpIntfObjectImpl`: a JSON object with the status of the response that it is from. -/
structure HttpObject where
  status : Status
  json : Json

/-- `RedfishVariant::AsObject` -/
def Variant.asObject (variant : Variant) : Option HttpObject :=
  match variant.body with
  | some (.json (.object members)) => some ⟨variant.status, .object members⟩
  | _ => none

/-- `GetValue(bool*)` -/
def Variant.getBool (variant : Variant) : Option Bool :=
  match variant.body with
  | some (.json (.boolean value)) => some value
  | _ => none

/-- `GetValue(int32_t*)`.  Whatever an undefined conversion gives, it is never used here. -/
def Variant.getInt (variant : Variant) : Option (BitVec 32) :=
  variant.body.bind (getValueInt32 fun _ => 0)

def getObjectUri (json : Json) : Option Text :=
  (json.find (text "@odata.id")).bind Json.string?

section

variable (resolve : Text -> Variant)

/-- `ResolveReference` without query parameters, where a GET of a reference returns this. -/
def resolveReference (status : Status) (json : Json) : Variant :=
  match getObjectUri json with
  | some reference => if json.size = 1 then resolve reference else ⟨status, some (.json json)⟩
  | none => ⟨status, some (.json json)⟩

/-- `HttpIntfObjectImpl::operator[]` -/
def HttpObject.get (object : HttpObject) (nodeName : Text) : Variant :=
  match object.json.find nodeName with
  | none => ⟨object.status, some (.json .discarded)⟩
  | some value => resolveReference resolve object.status value

/-- `RedfishVariant::operator[]` -/
def Variant.index (variant : Variant) (property : Text) : Variant :=
  if !variant.status.isOk then ⟨variant.status, none⟩
  else
    match variant.asObject with
    | some object => object.get resolve property
    | none => ⟨.internal (text "not a RedfishObject"), none⟩

end

/-- `RedfishSupportedFeatures::Expand` -/
structure ExpandFeatures where
  expandAll : Bool := false
  levels : Bool := false
  links : Bool := false
  noLinks : Bool := false
  maxLevels : BitVec 32 := 0
deriving DecidableEq

structure RedfishSupportedFeatures where
  filterEnabled : Bool := false
  expand : ExpandFeatures := {}
  topSkipEnable : Bool := false
deriving DecidableEq

def kProtocolFeaturesSupported : Text := text "ProtocolFeaturesSupported"
def kExpandQuery : Text := text "ExpandQuery"
def kFilterQuery : Text := text "FilterQuery"

variable (resolve : Text -> Variant)

def expandFeatures (expand : HttpObject) : ExpandFeatures where
  expandAll := ((expand.get resolve (text "ExpandAll")).getBool).getD false
  levels := ((expand.get resolve (text "Levels")).getBool).getD false
  links := ((expand.get resolve (text "Links")).getBool).getD false
  noLinks := ((expand.get resolve (text "NoLinks")).getBool).getD false
  maxLevels := ((expand.get resolve (text "MaxLevels")).getInt).getD 0

/-- What `PopulateSupportedFeatures` reads from the object at a root. -/
def advertisedFeatures (root : HttpObject) :
    RedfishSupportedFeatures :=
  let protocol := root.get resolve kProtocolFeaturesSupported
  { expand :=
      match (protocol.index resolve kExpandQuery).asObject with
      | some expand => expandFeatures resolve expand
      | none => {}
    topSkipEnable :=
      match protocol.asObject with
      | some features => ((features.get resolve (text "TopSkipQuery")).getBool).getD false
      | none => false
    filterEnabled := ((protocol.index resolve kFilterQuery).getBool).getD false }

/-- The members of the interface that its features are about. -/
structure InterfaceState where
  supportedFeatures : Option RedfishSupportedFeatures
  removeExpandSupport : Bool

def withoutRemoved (removeExpandSupport : Bool) (features : RedfishSupportedFeatures) :
    RedfishSupportedFeatures :=
  if removeExpandSupport then { features with expand := {} } else features

def populateSupportedFeatures (root : Variant) (state : InterfaceState) : InterfaceState :=
  if state.supportedFeatures.isSome || !root.status.isOk then state
  else
    match root.asObject with
    | none => state
    | some rootObject =>
      { state with
        supportedFeatures :=
          some (withoutRemoved state.removeExpandSupport (advertisedFeatures resolve rootObject)) }

/-- The conversion of an `int` to `size_t`. -/
def toSize (n : BitVec 32) : Nat :=
  (n.signExtend 64).toNat

variable (expand : RedfishQueryParamExpand)

/-- `RedfishQueryParamExpand::ValidateRedfishSupport` -/
def expandValidateRedfishSupport (features : Option RedfishSupportedFeatures) : Status :=
  match features with
  | none => .internal (text "Expands are not supported.")
  | some features =>
    let levels : Status :=
      if expand.levels > toSize features.expand.maxLevels then
        .internal (text "number of levels exceed max levels set in redfish features")
      else .okStatus
    match expand.type with
    | .both =>
      if !features.expand.expandAll then .internal (text "'expand_all' is not supported")
      else levels
    | .notLinks =>
      if !features.expand.noLinks then .internal (text "'no_links' is not supported")
      else levels
    | .links =>
      if !features.expand.links then .internal (text "'links' is not supported")
      else levels

/-- `RedfishQueryParamTop::ValidateRedfishSupport` -/
def topValidateRedfishSupport (features : Option RedfishSupportedFeatures) : Status :=
  match features with
  | none => .internal (text "Top query parameter is not supported.")
  | some features =>
    if !features.topSkipEnable then .internal (text "'$top' and '$skip' are not supported")
    else .okStatus

variable (features : RedfishSupportedFeatures) (params : GetParams)

/-- Reset `expand` if it is requested but not available. -/
def adjustExpand : GetParams :=
  match params.expand with
  | some expand =>
    if !(expandValidateRedfishSupport expand (some features)).isOk then
      { params with expand := none }
    else params
  | none => params

/-- Reset `top` if it is requested but not available. -/
def adjustTop : GetParams :=
  if params.top.isSome then
    if !(topValidateRedfishSupport (some features)).isOk then { params with top := none } else params
  else params

/-- Reset `filter` if it is requested but not available. -/
def adjustFilter : GetParams :=
  if params.filter.isSome then
    if !features.filterEnabled then { params with filter := none } else params
  else params

/-- `ValidateAndAdjustParams`, with the features that the interface has recorded. -/
def validateAndAdjustParams (supportedFeatures : Option RedfishSupportedFeatures)
    (params : GetParams) : GetParams :=
  if params.expand.isSome || params.top.isSome || params.filter.isSome then
    match supportedFeatures with
    | none => params
    | some features => adjustFilter features (adjustTop features (adjustExpand features params))
  else params

/-- Whether a service with these features supports an expand. -/
def RedfishSupportedFeatures.supportsExpand (expand : RedfishQueryParamExpand) : Bool :=
  (match expand.type with
    | .both => features.expand.expandAll
    | .notLinks => features.expand.noLinks
    | .links => features.expand.links) &&
  decide (expand.levels <= toSize features.expand.maxLevels)

/-- The parameters that a service with these features supports. -/
def RedfishSupportedFeatures.keep : GetParams :=
  { params with
    expand := params.expand.filter features.supportsExpand
    top := params.top.filter fun _ => features.topSkipEnable
    filter := params.filter.filter fun _ => features.filterEnabled }

lemma expandValidateRedfishSupport_isOk :
    (expandValidateRedfishSupport expand (some features)).isOk = features.supportsExpand expand := by
  have levels : (if expand.levels > toSize features.expand.maxLevels then
      Status.internal (text "number of levels exceed max levels set in redfish features")
      else .okStatus).isOk = decide (expand.levels <= toSize features.expand.maxLevels) := by
    by_cases exceeds : expand.levels > toSize features.expand.maxLevels
    · rw [if_pos exceeds, decide_eq_false (Nat.not_le.mpr exceeds)]
      rfl
    · rw [if_neg exceeds, decide_eq_true (Nat.not_lt.mp exceeds)]
      rfl
  rw [expandValidateRedfishSupport, RedfishSupportedFeatures.supportsExpand]
  cases expand.type with
  | both =>
    cases features.expand.expandAll with
    | false => rfl
    | true => exact levels
  | notLinks =>
    cases features.expand.noLinks with
    | false => rfl
    | true => exact levels
  | links =>
    cases features.expand.links with
    | false => rfl
    | true => exact levels

lemma adjustExpand_eq : adjustExpand features params =
      { params with expand := params.expand.filter features.supportsExpand } := by
  cases params with
  | mk _ _ _ _ requested =>
    cases requested with
    | none => rfl
    | some expand =>
      rw [adjustExpand]
      dsimp only
      rw [expandValidateRedfishSupport_isOk, filter_some]
      cases features.supportsExpand expand <;> rfl

lemma adjustTop_eq : adjustTop features params =
      { params with top := params.top.filter fun _ => features.topSkipEnable } := by
  cases params with
  | mk _ _ _ requested =>
    cases requested with
    | none => rfl
    | some numMembers =>
      rw [adjustTop, topValidateRedfishSupport]
      cases features.topSkipEnable <;> rfl

lemma adjustFilter_eq : adjustFilter features params =
      { params with filter := params.filter.filter fun _ => features.filterEnabled } := by
  cases params with
  | mk _ _ _ _ _ requested =>
    cases requested with
    | none => rfl
    | some filterString =>
      rw [adjustFilter]
      cases features.filterEnabled <;> rfl

/-- With recorded features exactly the supported parameters are kept. -/
lemma validateAndAdjustParams_some :
    validateAndAdjustParams (some features) params = features.keep params := by
  have adjusted : adjustFilter features (adjustTop features (adjustExpand features params)) =
      features.keep params := by
    rw [adjustExpand_eq, adjustTop_eq, adjustFilter_eq]
    rfl
  rw [validateAndAdjustParams]
  split
  · exact adjusted
  · rename_i nothing
    rw [Bool.or_eq_true, Bool.or_eq_true, not_or, not_or, not_isSome_iff_eq_none,
      not_isSome_iff_eq_none, not_isSome_iff_eq_none] at nothing
    cases params with
    | mk _ _ _ top expand filter =>
      rcases nothing with ⟨⟨noExpand, noTop⟩, noFilter⟩
      dsimp only at noExpand noTop noFilter
      rw [noExpand, noTop, noFilter]
      rfl

end Ecclesia.HttpIntf
