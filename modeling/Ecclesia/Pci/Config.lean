import Ecclesia.Absl.Strings
import Ecclesia.Library.Assoc
import Mathlib.Data.FinEnum

namespace Ecclesia.Pci

open Absl

/-!
# PCI configuration space

A configuration space is a region that is read at offsets, and every read may fail.  The
capabilities of a device are a linked list in it.

The definitions follow `config.cc` and `config.h`.
-/

/-- A `PciRegion`, as far as it is read here.  A read that fails does not fail with an OK
status. -/
structure PciRegion where
  read8 : Nat -> StatusOr (BitVec 8)
  read16 : Nat -> StatusOr (BitVec 16)
  read8_error : ∀ offset status, read8 offset = .error status -> status.isOk = false

variable (region : PciRegion)

/-- No read of a region fails. -/
structure ReadsSucceed : Prop where
  bytes : ∀ offset, ∃ byte, region.read8 offset = .ok byte
  words : ∀ offset, ∃ word, region.read16 offset = .ok word

/-- `CapabilityPointerToOffset`: the two lowest bits of a pointer are reserved. -/
def capabilityPointerToOffset (capPtr : BitVec 8) : BitVec 8 :=
  capPtr &&& 0xfc

structure PciCapability where
  region : PciRegion
  offset : BitVec 8

namespace PciCapability

def kCapIdOffset : Nat := 0x00
def kNextCapPtrOffset : Nat := 0x01

variable (capability : PciCapability)

def read8 (offset : Nat) : StatusOr (BitVec 8) :=
  capability.region.read8 (offset + capability.offset.toNat)

def read16 (offset : Nat) : StatusOr (BitVec 16) :=
  capability.region.read16 (offset + capability.offset.toNat)

def capabilityId : StatusOr (BitVec 8) :=
  capability.read8 kCapIdOffset

def nextCapabilityPointer : StatusOr (BitVec 8) :=
  capability.read8 kNextCapPtrOffset

/-- `NextCapability`.  The pointer is compared with zero before its reserved bits are masked. -/
def nextCapability : StatusOr PciCapability :=
  match capability.nextCapabilityPointer with
  | .error status => .error status
  | .ok nextPtr =>
    if nextPtr = 0 then .error (.notFound (text "no more capabilities"))
    else .ok ⟨capability.region, capabilityPointerToOffset nextPtr⟩

/-- `GetIf` for a type of capability with this id. -/
def getIf (kCapabilityId : BitVec 8) : StatusOr PciCapability :=
  match capability.capabilityId with
  | .error status => .error status
  | .ok capId =>
    if capId = kCapabilityId then .ok capability
    else .error (.notFound (text "Capability is not the requested type."))

end PciCapability

def kHeaderTypeOffset : Nat := 0x0e
def kCapPointerOffset : Nat := 0x34
def kMaxPciCapabilities : Nat := 48

def tooManyCapabilities : Status :=
  .internal (text "Reached maximum of " ++ strCatNat kMaxPciCapabilities ++
    text " PCI capabilities for this PCI region. Any remaining capabilities will not be read.")

def circularList (capPtr : BitVec 8) : Status :=
  .internal (text "Circular linked list detected for PCI capabilities. Visited offset " ++
    strCatNat capPtr.toNat ++ text " twice. Stopping further iteration of the list.")

/-- A set of offsets cannot grow forever. -/
lemma length_visited_le (visited : HashSet (BitVec 8)) : visited.elements.length <= 256 := by
  have few := visited.distinct.length_le_card
  rw [<- FinEnum.card_eq_fintypeCard] at few
  exact few

lemma length_visited_insert {visited : HashSet (BitVec 8)} {capPtr : BitVec 8}
    (absent : capPtr ∉ visited.elements) :
    256 - (visited.insert capPtr).elements.length < 256 - visited.elements.length := by
  have few := length_visited_le (visited.insert capPtr)
  rw [HashSet.elements_insert absent, List.length_append, List.length_singleton] at few ⊢
  omega

section

variable {State : Type} (region : PciRegion) (callback : PciCapability -> State -> Status × State)

/-- The loop of `ForEachCapability`, with the offsets that it has visited. -/
def visitCapabilities (visited : HashSet (BitVec 8)) (nextPtr : BitVec 8) (state : State) :
    Status × State :=
  let capPtr := capabilityPointerToOffset nextPtr
  if capPtr = 0 then (.okStatus, state)
  else if visited.elements.length = kMaxPciCapabilities then (tooManyCapabilities, state)
  else if _seen : capPtr ∈ visited.elements then (circularList capPtr, state)
  else
    let capability : PciCapability := ⟨region, capPtr⟩
    let called := callback capability state
    if !called.1.isOk then called
    else
      match capability.nextCapabilityPointer with
      | .error status => (status, called.2)
      | .ok following => visitCapabilities (visited.insert capPtr) following called.2
termination_by 256 - visited.elements.length
decreasing_by exact length_visited_insert _seen

/-- `ForEachCapability`.  The callback may have a state of its own. -/
def forEachCapability (state : State) : Status × State :=
  match region.read8 kCapPointerOffset with
  | .error status => (status, state)
  | .ok nextPtr => visitCapabilities region callback .empty nextPtr state

end

structure PciSubsystemSignature where
  vendorId : BitVec 16
  id : BitVec 16
deriving DecidableEq

/-- `PciSubsystemCapability::kCapabilityId` -/
def kSubsystemCapabilityId : BitVec 8 := 0x0d
def kSsvidOffset : Nat := 0x04
def kSsidOffset : Nat := 0x06

/-- `PciSubsystemCapability::SubsystemSignature` -/
def PciCapability.subsystemSignature (capability : PciCapability) :
    StatusOr PciSubsystemSignature :=
  match capability.read16 kSsvidOffset with
  | .error status => .error status
  | .ok ssvid =>
    match capability.read16 kSsidOffset with
    | .error status => .error status
    | .ok ssid => .ok ⟨ssvid, ssid⟩

def noSubsystemCapability : Status :=
  ⟨.unimplemented, text "no subsystem capability found on bridge"⟩

/-- The callback that looks for a subsystem capability.  Its status also goes to the walk. -/
def findSubsystemCapability (capability : PciCapability)
    (subsysSig : StatusOr PciSubsystemSignature) : Status × StatusOr PciSubsystemSignature :=
  match capability.getIf kSubsystemCapabilityId with
  | .error status => (status, subsysSig)
  | .ok subsysCap => (.okStatus, subsysCap.subsystemSignature)

/-- `PciType1ConfigSpace::SubsystemSignatureImpl` -/
def subsystemSignatureType1 : StatusOr PciSubsystemSignature :=
  let walked := forEachCapability region findSubsystemCapability (.error noSubsystemCapability)
  if !walked.1.isOk then .error walked.1 else walked.2

def kSubsysVendorIdOffset : Nat := 0x2c
def kSubsysIdOffset : Nat := 0x2e

/-- `PciType0ConfigSpace::SubsystemSignatureImpl` -/
def subsystemSignatureType0 : StatusOr PciSubsystemSignature :=
  match region.read16 kSubsysVendorIdOffset with
  | .error status => .error status
  | .ok ssvid =>
    match region.read16 kSubsysIdOffset with
    | .error status => .error status
    | .ok ssid => .ok ⟨ssvid, ssid⟩

/-- `HeaderType`: the highest bit is not part of it. -/
def headerType : StatusOr (BitVec 8) :=
  match region.read8 kHeaderTypeOffset with
  | .error status => .error status
  | .ok header => .ok (header &&& 0x7f)

/-- `PciConfigSpace::SubsystemSignature` -/
def subsystemSignature : StatusOr PciSubsystemSignature :=
  match headerType region with
  | .error status => .error status
  | .ok header =>
    if header = 0x00 then subsystemSignatureType0 region
    else if header = 0x01 then subsystemSignatureType1 region
    else .error ⟨.unimplemented, text "unsupported header type"⟩

end Ecclesia.Pci
