/-! What can go wrong, and how it is put into words. -/
namespace DriveRescue

inductive FileFault where
  | notFound | notDirectory | isDirectory | nameTooLong | nulByte
  /-- A length that the file cannot have. -/
  | tooLarge
  /-- A length that is no signed number of 64 bits. -/
  | noLength
  | other (text : String)
  deriving DecidableEq

def FileFault.message : FileFault → String
  | notFound => "No such file or directory (os error 2)"
  | notDirectory => "Not a directory (os error 20)"
  | isDirectory => "Is a directory (os error 21)"
  | nameTooLong => "File name too long (os error 36)"
  | nulByte => "file name contained an unexpected NUL byte"
  | tooLarge => "File too large (os error 27)"
  | noLength => "number too large to fit in target type"
  | other text => text

inductive OptionFault where
  | unknownOption
  | unknownAccess (word : String)
  | unknownStrategy (word : String)
  | notNumber (text : String)
  | notYesNo (text : String)
  | noDestination
  | noSkip
  | startBeyond (start stop : Nat)
  | nothingToTest (start stop : Nat)
  | noSectors (device : String)
  | other (text : String)
  deriving DecidableEq

def OptionFault.message : OptionFault → String
  | unknownOption => "unknown option"
  | unknownAccess word => s!"unknown access path '{word}', expected ata or posix"
  | unknownStrategy word => s!"unknown strategy '{word}'"
  | notNumber text => s!"'{text}' is not a number"
  | notYesNo text => s!"expected yes or no, got '{text}'"
  | noDestination => "destination path is required"
  | noSkip => "must be at least one block"
  | startBeyond start stop => s!"{start} is beyond the last sector {stop}"
  | nothingToTest start stop => s!"nothing to test between {start} and {stop}"
  | noSectors device => s!"{device} has no sectors to fill"
  | other text => text

inductive JournalFault where
  | noSectors
  | other (text : String)
  deriving DecidableEq

def JournalFault.message : JournalFault → String
  | noSectors => "source has no sectors"
  | other text => text

inductive BufferFault where
  | alignment (n : Nat)
  | empty
  /-- The size does not fit an address once it is rounded up. -/
  | layout
  | refused (bytes : Nat)
  | other (text : String)
  deriving DecidableEq

def BufferFault.message : BufferFault → String
  | alignment n => s!"alignment {n} is not a power of 2"
  | empty => "zero-sized transfer buffer"
  | layout => "invalid parameters to Layout::from_size_align"
  | refused bytes => s!"failed to allocate {bytes} bytes"
  | other text => text

inductive Error where
  | file (fault : FileFault)
  | cannotOpen (path : String) (fault : FileFault)
  | unsupportedAccess (text : String)
  | invalidOption (name : String) (fault : OptionFault)
  | journalSize (expected found : Nat)
  | journal (fault : JournalFault)
  | buffer (fault : BufferFault)
  | configuration (text : String)
  | interrupted
  deriving DecidableEq

namespace Error

def message : Error → String
  | file fault => "I/O error: " ++ fault.message
  | cannotOpen path fault => s!"Failed to open {path}: {fault.message}"
  | unsupportedAccess text => "Access path not supported: " ++ text
  | invalidOption name fault => s!"Invalid option '{name}': {fault.message}"
  | journalSize expected found =>
    s!"Journal size mismatch: expected {expected} sectors, found {found}"
  | journal fault => "Journal error: " ++ fault.message
  | buffer fault => "Buffer allocation failed: " ++ fault.message
  | configuration text => "Configuration error: " ++ text
  | interrupted => "Operation interrupted by user"

def cause? : Error → Option FileFault
  | file fault | cannotOpen _ fault => some fault
  | _ => none

/-- The error shows while a job is set up and stops it before it starts. -/
def isConfiguration : Error → Bool
  | unsupportedAccess _ | invalidOption .. | journalSize .. | configuration _ => true
  | _ => false

end Error

end DriveRescue
