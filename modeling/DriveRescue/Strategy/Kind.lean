/-! The read strategies by name. -/
namespace DriveRescue

inductive StrategyKind where
  | plain | smart | smartForward | skipFail | skipFailForward
  deriving DecidableEq

namespace StrategyKind

def all : List StrategyKind := [plain, smart, smartForward, skipFail, skipFailForward]

def name : StrategyKind → String
  | plain => "plain"
  | smart => "smart"
  | smartForward => "smart_noreverse"
  | skipFail => "skipfail"
  | skipFailForward => "skipfail_noreverse"

def ofName? (name : String) : Option StrategyKind := all.find? (·.name == name)

/-- Whether zones may also be read downwards. -/
def allowsReverse (k : StrategyKind) : Bool := k == smart || k == skipFail

theorem ofName?_name (k : StrategyKind) : ofName? k.name = some k := by cases k <;> decide

end StrategyKind

end DriveRescue
