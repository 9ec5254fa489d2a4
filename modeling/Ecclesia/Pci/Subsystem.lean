import Ecclesia.Pci.Capabilities

namespace Ecclesia.Pci

/-!
# Subsystem signatures of bridges

A bridge has its subsystem signature in one of its capabilities.  The callback that looks for this
capability returns an error at every other one, and the walk stops at the first error.
-/

section

variable (region : PciRegion)

/-- The capability at an offset is a subsystem capability. -/
def isSubsystem (offset : BitVec 8) : Bool :=
  match (PciCapability.mk region offset).capabilityId with
  | .ok capId => capId = kSubsystemCapabilityId
  | .error _ => false

def lastSubsystem (offsets : List (BitVec 8)) : Option (BitVec 8) :=
  (offsets.filter (isSubsystem region)).getLast?

/-- The signature comes from the last subsystem capability, and it is unimplemented exactly if
there is none. -/
structure SignatureFound (offsets : List (BitVec 8)) : Prop where
  last : ∀ offset, lastSubsystem region offsets = some offset ->
    ∃ signature, (PciCapability.mk region offset).subsystemSignature = .ok signature ∧
      subsystemSignature region = .ok signature
  unimplemented : (∃ status, subsystemSignature region = .error status ∧
      status.code = .unimplemented) <->
    lastSubsystem region offsets = none

end

section

variable {region : PciRegion}

lemma isSubsystem_iff (offset : BitVec 8) : isSubsystem region offset = true <->
    (PciCapability.mk region offset).capabilityId = .ok kSubsystemCapabilityId := by
  unfold isSubsystem
  cases (PciCapability.mk region offset).capabilityId with
  | error status => exact iff_of_false Bool.false_ne_true (by simp)
  | ok capId =>
    rw [decide_eq_true_iff, Except.ok.injEq]

lemma findSubsystemCapability_found {offset : BitVec 8} (found : isSubsystem region offset = true)
    (subsysSig : StatusOr PciSubsystemSignature) :
    findSubsystemCapability ⟨region, offset⟩ subsysSig =
      (.okStatus, (PciCapability.mk region offset).subsystemSignature) := by
  unfold isSubsystem at found
  unfold findSubsystemCapability PciCapability.getIf
  cases read : (PciCapability.mk region offset).capabilityId with
  | error status =>
    rw [read] at found
    cases found
  | ok capId =>
    rw [read] at found
    dsimp only
    rw [if_pos (of_decide_eq_true found)]

/-- The walk gets an error that says that the capability is another one. -/
lemma findSubsystemCapability_other (reads : ReadsSucceed region) {offset : BitVec 8}
    (other : isSubsystem region offset = false) (subsysSig : StatusOr PciSubsystemSignature) :
    findSubsystemCapability ⟨region, offset⟩ subsysSig =
      (.notFound (text "Capability is not the requested type."), subsysSig) := by
  unfold isSubsystem at other
  unfold findSubsystemCapability PciCapability.getIf
  rcases reads.bytes (PciCapability.kCapIdOffset + offset.toNat) with ⟨capId, byte⟩
  have read : (PciCapability.mk region offset).capabilityId = .ok capId := byte
  rw [read] at other ⊢
  dsimp only
  rw [if_neg (of_decide_eq_false other)]

lemma callAll_found {offsets : List (BitVec 8)}
    (found : ∀ offset ∈ offsets, isSubsystem region offset = true) :
    ∀ subsysSig, callAll region findSubsystemCapability offsets subsysSig =
      (.okStatus, match offsets.getLast? with
        | some offset => (PciCapability.mk region offset).subsystemSignature
        | none => subsysSig) := by
  induction offsets with
  | nil => exact fun _ => rfl
  | cons offset rest ih =>
    intro subsysSig
    have here := findSubsystemCapability_found (found offset (.head _)) subsysSig
    have fine : (findSubsystemCapability ⟨region, offset⟩ subsysSig).1.isOk = true := by
      rw [here]
      rfl
    rw [callAll_cons fine, here, ih fun other member => found other (.tail _ member)]
    cases rest with
    | nil => rfl
    | cons second rest =>
      rw [List.getLast?_cons_cons]
      cases last : (second :: rest).getLast? with
      | none => cases List.getLast?_eq_none_iff.mp last
      | some _ => rfl

/-- Up to another capability all succeeds, and there the walk is over. -/
lemma callAll_other (reads : ReadsSucceed region) {offsets : List (BitVec 8)} {other : BitVec 8}
    (member : other ∈ offsets) (isOther : isSubsystem region other = false) :
    ∀ subsysSig, (callAll region findSubsystemCapability offsets subsysSig).1 =
      .notFound (text "Capability is not the requested type.") := by
  induction offsets with
  | nil => cases member
  | cons offset rest ih =>
    intro subsysSig
    cases found : isSubsystem region offset with
    | false =>
      rw [callAll, findSubsystemCapability_other reads found]
      rfl
    | true =>
      have later : other ∈ rest := by
        rcases List.mem_cons.mp member with rfl | later
        · rw [isOther] at found
          cases found
        · exact later
      have here := findSubsystemCapability_found found subsysSig
      have fine : (findSubsystemCapability ⟨region, offset⟩ subsysSig).1.isOk = true := by
        rw [here]
        rfl
      rw [callAll_cons fine]
      exact ih later _

lemma subsystemSignature_readable (reads : ReadsSucceed region) (offset : BitVec 8) :
    ∃ signature, (PciCapability.mk region offset).subsystemSignature = .ok signature := by
  rcases reads.words (kSsvidOffset + offset.toNat) with ⟨ssvid, first⟩
  rcases reads.words (kSsidOffset + offset.toNat) with ⟨ssid, second⟩
  have readFirst : (PciCapability.mk region offset).read16 kSsvidOffset = .ok ssvid := first
  have readSecond : (PciCapability.mk region offset).read16 kSsidOffset = .ok ssid := second
  refine ⟨⟨ssvid, ssid⟩, ?_⟩
  rw [PciCapability.subsystemSignature, readFirst]
  rw [readSecond]

lemma subsystemSignature_bridge (bridge : headerType region = .ok 1) :
    subsystemSignature region = subsystemSignatureType1 region := by
  rw [subsystemSignature, bridge]
  rfl

end

/-- The signature is found exactly if the list has nothing but subsystem capabilities. -/
theorem subsystemSignature_found_iff :
    ∀ (region : PciRegion) (start : BitVec 8) (offsets : List (BitVec 8)),
      ReadsSucceed region -> headerType region = .ok 1 ->
      firstOffset region = some start -> Listed region start offsets ->
      offsets.length <= kMaxPciCapabilities ->
      (SignatureFound region offsets <->
        ∀ offset ∈ offsets,
          (PciCapability.mk region offset).capabilityId = .ok kSubsystemCapabilityId) := by
  intro region start offsets reads bridge isStart listed few
  have walked : forEachCapability region findSubsystemCapability (.error noSubsystemCapability) =
      callAll region findSubsystemCapability offsets (.error noSubsystemCapability) :=
    forEachCapability_listed isStart listed few _
  have same := subsystemSignature_bridge bridge
  rw [subsystemSignatureType1, walked] at same
  have ids : (∀ offset ∈ offsets,
      (PciCapability.mk region offset).capabilityId = .ok kSubsystemCapabilityId) <->
      ∀ offset ∈ offsets, isSubsystem region offset = true := by
    simp only [isSubsystem_iff]
  rw [ids]
  constructor
  · intro signature offset member
    by_contra other
    have isOther := Bool.eq_false_iff.mpr other
    have failed := callAll_other reads member isOther (.error noSubsystemCapability)
    rw [failed] at same
    have isError : subsystemSignature region =
        .error (.notFound (text "Capability is not the requested type.")) := same
    cases last : lastSubsystem region offsets with
    | some subsystem =>
      rcases signature.last subsystem last with ⟨_, _, isOk⟩
      rw [isError] at isOk
      cases isOk
    | none =>
      rcases signature.unimplemented.mpr last with ⟨status, isStatus, code⟩
      rw [isError] at isStatus
      cases isStatus
      cases code
  · intro all
    have kept : lastSubsystem region offsets = offsets.getLast? := by
      rw [lastSubsystem, List.filter_eq_self.mpr all]
    rw [callAll_found all] at same
    have isLast : subsystemSignature region = match offsets.getLast? with
        | some offset => (PciCapability.mk region offset).subsystemSignature
        | none => .error noSubsystemCapability := same
    constructor
    · intro offset last
      rw [kept] at last
      rw [last] at isLast
      rcases subsystemSignature_readable reads offset with ⟨signature, isSignature⟩
      exact ⟨signature, isSignature, isLast.trans isSignature⟩
    · rw [kept]
      cases last : offsets.getLast? with
      | none =>
        rw [last] at isLast
        exact iff_of_true ⟨_, isLast, rfl⟩ rfl
      | some offset =>
        rw [last] at isLast
        rcases subsystemSignature_readable reads offset with ⟨signature, isSignature⟩
        apply iff_of_false
        · rintro ⟨status, isStatus, _⟩
          rw [isLast] at isStatus
          dsimp only at isStatus
          rw [isSignature] at isStatus
          cases isStatus
        · intro impossible
          cases impossible

/-- A bridge with one capability of this id at 64, and a subsystem capability behind it at 72. -/
def twoCapabilities (capId : BitVec 8) : PciRegion :=
  bytesRegion fun offset =>
    if offset = kHeaderTypeOffset then 1
    else if offset = kCapPointerOffset then 64
    else if offset = 64 then capId
    else if offset = 65 then 72
    else if offset = 72 then kSubsystemCapabilityId
    else 0

lemma listed_twoCapabilities (capId : BitVec 8) : Listed (twoCapabilities capId) 64 [64, 72] := by
  have first : followingOffset (twoCapabilities capId) 64 = some 72 :=
    congrArg some (by decide : capabilityPointerToOffset 72 = 72)
  have second : followingOffset (twoCapabilities capId) 72 = some 0 :=
    congrArg some (by decide : capabilityPointerToOffset 0 = 0)
  exact .step (by decide) first (.step (by decide) second (.here 0))

theorem subsystemSignature_found_two :
    SignatureFound (twoCapabilities kSubsystemCapabilityId) [64, 72] :=
  (subsystemSignature_found_iff _ 64 [64, 72] (readsSucceed_bytesRegion _) rfl rfl
    (listed_twoCapabilities _) (by decide)).mpr (by decide)

/-- Behind a PCI Express capability the subsystem capability is not found. -/
theorem subsystemSignature_behind_express :
    ¬ ∀ (region : PciRegion) (start : BitVec 8) (offsets : List (BitVec 8)),
      ReadsSucceed region -> headerType region = .ok 1 ->
      firstOffset region = some start -> Listed region start offsets ->
      offsets.length <= kMaxPciCapabilities -> SignatureFound region offsets := by
  intro always
  have found := always (twoCapabilities 0x10) 64 [64, 72] (readsSucceed_bytesRegion _) rfl rfl
    (listed_twoCapabilities _) (by decide)
  rcases found.last 72 rfl with ⟨signature, _, isOk⟩
  rw [subsystemSignature_bridge rfl, subsystemSignatureType1,
    forEachCapability_listed (rfl : firstOffset (twoCapabilities 0x10) = some 64)
      (listed_twoCapabilities 0x10) (by decide)] at isOk
  cases isOk

end Ecclesia.Pci
