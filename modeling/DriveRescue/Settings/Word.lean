import DriveRescue.Api
import DriveRescue.Error
import DriveRescue.Strategy.Kind
import DriveRescue.Text.Blank
import DriveRescue.Text.Number

/-! Option values written as words. Blanks around a word and the case of its letters do not
matter. -/
namespace DriveRescue

def Api.ofWord (word : String) : Except Error Api :=
  match Text.lower (Text.trim word) with
  | "ata" => .ok .ata
  | "posix" => .ok .posix
  | other => .error (.invalidOption "api" (.unknownAccess other))

def StrategyKind.ofWord (word : String) : Except Error StrategyKind :=
  match StrategyKind.ofName? (Text.lower (Text.trim word)) with
  | some k => .ok k
  | none => .error (.invalidOption "read_strategy" (.unknownStrategy (Text.trim word)))

namespace Settings

def number (name value : String) : Except Error Nat :=
  match Text.word? (Text.trim value) with
  | some n => .ok n
  | none => .error (.invalidOption name (.notNumber value))

def yesNo (name value : String) : Except Error Bool :=
  match Text.lower (Text.trim value) with
  | "yes" | "true" | "1" => .ok true
  | "no" | "false" | "0" => .ok false
  | _ => .error (.invalidOption name (.notYesNo value))

end Settings

end DriveRescue
