import DriveRescue.Access

/-! Devices and images by path. -/
namespace DriveRescue

structure Device where
  path : String
  /-- Where the path leads. -/
  key : List String
  node : Node
  writable : Bool

namespace Device

def capacityBytes (d : Device) : Nat := d.node.size

/-- Whole sectors; bytes behind the last of them are out of reach. -/
def capacity (d : Device) : Nat := d.capacityBytes / sectorBytes

def openPath (files : FileTree) (path : String) (writable : Bool) : Except Error Device :=
  match files.openExisting path writable with
  | .ok (key, node) => .ok ⟨path, key, node, writable⟩
  | .error fault => .error (.cannotOpen path fault)

end Device

structure DeviceInfo where
  path : String
  capacityBytes : Nat
  isBlockDevice : Bool
  /-- Takes commands passed through to the drive. -/
  ataCapable : Bool
  model : Option String
  deriving DecidableEq

namespace DeviceInfo

/-- Looks at a device. Files of an ordinary tree are no drives. -/
def probe (files : FileTree) (path : String) : Except Error DeviceInfo :=
  (Device.openPath files path false).map fun d => ⟨path, d.capacityBytes, false, false, none⟩

def capacity (i : DeviceInfo) : Nat := i.capacityBytes / sectorBytes

end DeviceInfo

def Source.openPath (files : FileTree) (path : String) (api : Api) : Except Error Source :=
  match api with
  | .ata => do
    let info ← DeviceInfo.probe files path
    if !info.ataCapable then
      throw (.unsupportedAccess s!"{path} does not support ATA pass-through")
    let device ← Device.openPath files path false
    return { Source.ofNode device.node with api := .ata }
  | .posix => (Device.openPath files path false).map fun d => .ofNode d.node

end DriveRescue
