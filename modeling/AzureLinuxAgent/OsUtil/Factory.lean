import AzureLinuxAgent.Python.Str

/-!
# Choosing the OS utilities of a distribution (`factory._get_osutil`)

`get_osutil` hands the distribution's name, code name, version and full name to `_get_osutil`,
which tests them in a fixed order and returns an instance of the first class of OS utilities
that fits, falling back to `DefaultOSUtil` with a warning. The classes and `DistroVersion` are
defined outside the sources: the classes are named by `OsUtilClass`, and the comparisons of
`DistroVersion` on two version strings are an input of the model (`DistroVersionOps`), on which
nothing is assumed.

`getOsutil_reads_version_only_for_versioned_names` shows that the version, and so every
comparison of `DistroVersion`, is read only for the names of the five families whose branch
tests it (Ubuntu, SUSE, Debian, Devuan and Red Hat): for any other name the class is the same
whatever the version and whatever `DistroVersion` does.
-/

namespace AzureLinuxAgent

namespace OsUtil

open Python

/-- The classes `_get_osutil` returns an instance of; they are defined outside the sources. -/
inductive OsUtilClass where
  | photonOSUtil
  | archUtil
  | clearLinuxUtil
  | ubuntu12OSUtil
  | ubuntu14OSUtil
  | ubuntu16OSUtil
  | ubuntu18OSUtil
  | ubuntuSnappyOSUtil
  | ubuntuOSUtil
  | alpineOSUtil
  | chainguardOSUtil
  | debianOSBaseUtil
  | coreOSUtil
  | suse11OSUtil
  | suseOSUtil
  | debianOSModernUtil
  | devuanOSUtil
  | redhat6xOSUtil
  | redhatOSModernUtil
  | redhatOSUtil
  | freeBSDOSUtil
  | openBSDOSUtil
  | bigIpOSUtil
  | gaiaOSUtil
  | iosxeOSUtil
  | marinerOSUtil
  | nsbsdOSUtil
  | openWRTOSUtil
  | fedoraOSUtil
  | defaultOSUtil
  deriving DecidableEq, Repr

/-- The comparisons of `DistroVersion(a)` with `DistroVersion(b)`: `==` (which `in` on a list
also uses), `<`, `<=`, `>` and `>=`. -/
structure DistroVersionOps where
  eq : String → String → Bool
  lt : String → String → Bool
  le : String → String → Bool
  gt : String → String → Bool
  ge : String → String → Bool

/-- `_get_osutil(distro_name, distro_code_name, distro_version, distro_full_name)`, and so
`get_osutil`, whose default arguments are constants defined outside the sources. The warning
before the fallback is left out. -/
def getOsutil (dv : DistroVersionOps) (distroName distroCodeName distroVersion distroFullName : String) :
    OsUtilClass :=
  if distroName = "photonos" then .photonOSUtil
  else if distroName = "arch" then .archUtil
  else if strContains distroFullName "Clear Linux" then .clearLinuxUtil
  else if distroName = "ubuntu" then
    if ["12.04", "12.10"].any (dv.eq distroVersion) then .ubuntu12OSUtil
    else if ["14.04", "14.10"].any (dv.eq distroVersion) then .ubuntu14OSUtil
    else if ["16.04", "16.10", "17.04"].any (dv.eq distroVersion) then .ubuntu16OSUtil
    else if dv.le "18.04" distroVersion && dv.le distroVersion "24.04" then .ubuntu18OSUtil
    else if distroFullName = "Snappy Ubuntu Core" then .ubuntuSnappyOSUtil
    else .ubuntuOSUtil
  else if distroName ∈ ["alpine", "alpaquita"] then .alpineOSUtil
  else if distroName = "chainguard" then .chainguardOSUtil
  else if distroName = "kali" then .debianOSBaseUtil
  else if distroName ∈ ["flatcar", "coreos"] ∨ distroCodeName ∈ ["flatcar", "coreos"] then .coreOSUtil
  else if distroName ∈ ["suse", "sle-micro", "sle_hpc", "sles", "opensuse"] then
    if distroFullName = "SUSE Linux Enterprise Server" ∧ dv.lt distroVersion "12" ∨
        distroFullName = "openSUSE" ∧ dv.lt distroVersion "13.2" then .suse11OSUtil
    else .suseOSUtil
  else if distroName = "debian" then
    if strContains distroVersion "sid" ∨ dv.gt distroVersion "7" then .debianOSModernUtil
    else .debianOSBaseUtil
  else if distroName = "devuan" ∧ dv.ge distroVersion "4" then .devuanOSUtil
  else if distroName ∈ ["redhat", "rhel", "centos", "oracle", "almalinux", "cloudlinux", "rocky"] then
    if dv.lt distroVersion "7" then .redhat6xOSUtil
    else if dv.ge distroVersion "8.6" then .redhatOSModernUtil
    else .redhatOSUtil
  else if distroName = "euleros" then .redhatOSUtil
  else if distroName = "uos" then .redhatOSUtil
  else if distroName = "freebsd" then .freeBSDOSUtil
  else if distroName = "openbsd" then .openBSDOSUtil
  else if distroName = "bigip" then .bigIpOSUtil
  else if distroName = "gaia" then .gaiaOSUtil
  else if distroName = "iosxe" then .iosxeOSUtil
  else if distroName ∈ ["mariner", "azurelinux"] then .marinerOSUtil
  else if distroName = "nsbsd" then .nsbsdOSUtil
  else if distroName = "openwrt" then .openWRTOSUtil
  else if distroName = "fedora" then .fedoraOSUtil
  else .defaultOSUtil

/-! ## Where the version is read -/

/-- The names whose branch compares versions: Ubuntu, the SUSE family, Debian, Devuan and the
Red Hat family. -/
def versionedDistroNames : List String :=
  ["ubuntu", "suse", "sle-micro", "sle_hpc", "sles", "opensuse", "debian", "devuan", "redhat",
    "rhel", "centos", "oracle", "almalinux", "cloudlinux", "rocky"]

/-- For a name outside the five families that compare versions, the class does not depend on the
version, nor on what `DistroVersion` does. -/
theorem getOsutil_reads_version_only_for_versioned_names (dv dv' : DistroVersionOps)
    (distroName distroCodeName distroVersion distroVersion' distroFullName : String)
    (h : distroName ∉ versionedDistroNames) :
    getOsutil dv distroName distroCodeName distroVersion distroFullName =
      getOsutil dv' distroName distroCodeName distroVersion' distroFullName := by
  simp only [versionedDistroNames, List.mem_cons, List.not_mem_nil, or_false, not_or] at h
  obtain ⟨hubuntu, hsuse₁, hsuse₂, hsuse₃, hsuse₄, hsuse₅, hdebian, hdevuan, hrh₁, hrh₂, hrh₃, hrh₄,
    hrh₅, hrh₆, hrh₇⟩ := h
  simp only [getOsutil, hubuntu, hdebian, hdevuan, List.mem_cons, List.not_mem_nil, hsuse₁, hsuse₂,
    hsuse₃, hsuse₄, hsuse₅, hrh₁, hrh₂, hrh₃, hrh₄, hrh₅, hrh₆, hrh₇, or_false, false_and, if_false]

/-- A Fedora host gets its class whatever its version and whatever the comparisons do. -/
theorem getOsutil_reads_version_only_for_versioned_names_fedora :
    "fedora" ∉ versionedDistroNames ∧
      getOsutil ⟨fun _ _ => true, fun _ _ => true, fun _ _ => true, fun _ _ => true, fun _ _ => true⟩
          "fedora" "" "39" "Fedora Linux" =
        getOsutil ⟨fun _ _ => false, fun _ _ => false, fun _ _ => false, fun _ _ => false,
          fun _ _ => false⟩ "fedora" "" "40" "Fedora Linux" :=
  ⟨by decide, getOsutil_reads_version_only_for_versioned_names _ _ "fedora" "" "39" "40" "Fedora Linux"
    (by decide)⟩

end OsUtil

end AzureLinuxAgent
