import Avtp.Header
import Avtp.Acf.MessageType

/-!
# Message formats with a header of their own

Three message types have a header table beyond the one that all ACF messages share. Their messages
also have a pad count, always in the same place: `place_padSlot` says that the CAN field may stand
for all three.
-/

namespace Avtp.Acf

/-- A message type whose header is known. -/
inductive MessageFormat where
  | can
  | canBrief
  | lin
  deriving DecidableEq

namespace MessageFormat

/-- The formats. -/
def all : List MessageFormat := [can, canBrief, lin]

/-- The header of the format. -/
@[reducible] def header : MessageFormat → Header
  | can => .can
  | canBrief => .canBrief
  | lin => .lin

/-- The message type that announces the format. -/
def type : MessageFormat → MessageType
  | can => .can
  | canBrief => .canBrief
  | lin => .lin

/-- The format that a message type announces. -/
def ofType? (type : MessageType) : Option MessageFormat :=
  all.find? fun format ↦ format.type = type

/-- The field of the pad count. -/
def padSlot : (format : MessageFormat) → format.header.Slot
  | can => CanSlot.pad
  | canBrief => CanBriefSlot.pad
  | lin => LinSlot.pad

/-- The pad count has the same place in all formats. -/
theorem place_padSlot (format : MessageFormat) :
    Header.place format.padSlot = Header.place (h := .can) CanSlot.pad := by
  cases format <;> rfl

end MessageFormat

end Avtp.Acf
